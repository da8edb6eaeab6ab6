import KAssetTrader.Stream.Pipeline

/-!
What the client of a session gets. The order of each topic, the last message after a
flush and the size of the mailbox hold in every run. That nothing reaches a client that
has released the topic, or has left, holds as long as no such call meets a flush that
still holds the message.
-/

namespace KAssetTrader.Stream

open Pipeline Transition

section Reach

variable {p p' : Pipeline} {key : String}

/-- No call takes a message out of reach that the flush under way still holds: a
declaration releases no topic of the batch, and the session is not closed before it is
sent. -/
def StaysInReach (p : Pipeline) : PipelineAction → Prop
  | .declare requested => ∀ entry ∈ p.rest, entry.1 ∉ p.session.released requested
  | .close => p.rest = []
  | _ => True

theorem isCurrent_iff {session : StreamSession} :
    Pipeline.isCurrent session key = true ↔
      session.closed = false ∧ (key ∈ session.topics.keys ∨ key = statusMailboxKey) := by
  simp [isCurrent, ← Dict.isSome_get?_iff]

structure CurrentKept (p : Pipeline) : Prop where
  kept : PipelineKept p
  delivered : ∀ d ∈ p.delivered, d.current = true
  rest : ∀ entry ∈ p.rest, Pipeline.isCurrent p.session entry.1 = true
  closed : p.session.closed = true → p.session.pending.entries = [] ∧ p.session.control = []

theorem CurrentKept.sendBatch {batch : List (String × Message)}
    (hdelivered : ∀ d ∈ p.delivered, d.current = true)
    (hbatch : ∀ entry ∈ batch, Pipeline.isCurrent p.session entry.1 = true) :
    (∀ d ∈ (p.sendBatch batch).delivered, d.current = true) ∧
      ∀ entry ∈ (p.sendBatch batch).rest, Pipeline.isCurrent p.session entry.1 = true := by
  cases batch with
  | nil => exact ⟨hdelivered, List.forall_mem_nil _⟩
  | cons next rest =>
    constructor
    · intro d hd
      rcases List.mem_append.mp hd with hold | hnew
      · exact hdelivered d hold
      · rw [List.mem_singleton.mp hnew]
        exact hbatch next List.mem_cons_self
    · intro entry hentry
      exact hbatch entry (List.mem_cons_of_mem _ hentry)

theorem CurrentKept.sendControl (h : CurrentKept p) (hrest : p.rest = [])
    (hsender : p.sender ≠ .ended) : CurrentKept p.sendControl := by
  have hkept := h.kept.sendControl hrest hsender
  unfold Pipeline.sendControl at hkept ⊢
  split
  next message rest hcontrol =>
    rw [hcontrol] at hkept
    have hopen : p.session.closed = false := by
      cases hclosed : p.session.closed with
      | false => rfl
      | true =>
        have hnone := (h.closed hclosed).2
        rw [hcontrol] at hnone
        cases hnone
    refine ⟨hkept, fun d hd => ?_, List.forall_mem_nil _, ?_⟩
    · rcases List.mem_append.mp hd with hold | hnew
      · exact h.delivered d hold
      · rw [List.mem_singleton.mp hnew]
        change (!p.session.closed) = true
        rw [hopen]
        rfl
    · intro hclosed
      change p.session.closed = true at hclosed
      rw [hopen] at hclosed
      cases hclosed
  next hcontrol =>
    rw [hcontrol] at hkept
    have hbatch : ∀ entry ∈ p.session.pending.entries,
        isCurrent { p.session with pending := Dict.empty } entry.1 = true := by
      intro entry hentry
      refine isCurrent_iff.mpr ⟨?_, h.kept.keys _ (List.mem_map_of_mem hentry)⟩
      cases hclosed : p.session.closed with
      | false => rfl
      | true =>
        rw [(h.closed hclosed).1] at hentry
        cases hentry
    obtain ⟨hdelivered, hreach⟩ := CurrentKept.sendBatch
      (p := { p with session := { p.session with pending := Dict.empty } }) h.delivered hbatch
    obtain ⟨hsession, _⟩ := sendBatch_frame
      (p := { p with session := { p.session with pending := Dict.empty } })
      p.session.pending.entries
    refine ⟨hkept, hdelivered, ?_, ?_⟩
    · rw [hsession]
      exact hreach
    · rw [hsession]
      exact fun _ => ⟨rfl, hcontrol⟩

/-- A flush that stays in reach of the session delivers current messages only. -/
theorem CurrentKept.step {action : PipelineAction} (h : CurrentKept p)
    (hreach : StaysInReach p action) (hstep : p.step action = some p') : CurrentKept p' := by
  have hkept := h.kept.step hstep
  cases action with
  | declare requested =>
    cases hstep
    refine ⟨hkept, h.delivered, fun entry hentry => ?_, fun hclosed => ?_⟩
    · obtain ⟨hopen, hkey⟩ := isCurrent_iff.mp (h.rest entry hentry)
      refine isCurrent_iff.mpr ⟨hopen, ?_⟩
      rcases hkey with htopic | hstatus
      · refine .inl ?_
        by_contra hnot
        exact hreach entry hentry (List.mem_filter.mpr ⟨htopic, decide_eq_true hnot⟩)
      · exact .inr hstatus
    · obtain ⟨hpending, hcontrol⟩ := h.closed hclosed
      refine ⟨?_, hcontrol⟩
      change p.session.pending.entries.filter _ = []
      rw [hpending]
      rfl
  | offer key message =>
    cases hstep
    obtain ⟨htopics, hclosed, hcontrol⟩ :=
      offer_topics p.session key message
    refine ⟨hkept, h.delivered, fun entry hentry => ?_, fun hyes => ?_⟩
    · have hsame := h.rest entry hentry
      simp only [isCurrent] at hsame ⊢
      rw [htopics, hclosed]
      exact hsame
    · change (p.session.offer key message).closed = true at hyes
      rw [hclosed] at hyes
      have hrefused : p.session.offer key message = p.session := if_pos (.inl hyes)
      change (p.session.offer key message).pending.entries = [] ∧
        (p.session.offer key message).control = []
      rw [hrefused]
      exact h.closed hyes
  | offerStatus upstream reason pollingTopics =>
    cases hstep
    unfold StreamSession.offerStatus at hkept ⊢
    split
    next hclosed =>
      rw [if_pos hclosed] at hkept
      exact ⟨hkept, h.delivered, h.rest, h.closed⟩
    next hopen =>
      rw [if_neg hopen] at hkept
      exact ⟨hkept, h.delivered, h.rest, fun hyes => absurd hyes hopen⟩
  | pushControl message =>
    cases hstep
    unfold StreamSession.pushControl at hkept ⊢
    split
    next hclosed =>
      rw [if_pos hclosed] at hkept
      exact ⟨hkept, h.delivered, h.rest, h.closed⟩
    next hopen =>
      rw [if_neg hopen] at hkept
      exact ⟨hkept, h.delivered, h.rest, fun hyes => absurd hyes hopen⟩
  | close =>
    cases hstep
    refine ⟨hkept, h.delivered, fun entry hentry => ?_, fun _ => ⟨rfl, rfl⟩⟩
    have hnone : p.rest = [] := hreach
    change entry ∈ p.rest at hentry
    rw [hnone] at hentry
    cases hentry
  | flush =>
    simp only [Pipeline.step] at hstep
    split at hstep
    next hsender =>
      cases hstep
      have hstart : CurrentKept { p with quiet := true } := by
        refine ⟨?_, h.delivered, h.rest, h.closed⟩
        exact ⟨h.kept.topics, h.kept.order, h.kept.last, h.kept.subscribed, h.kept.keys⟩
      exact hstart.sendControl (by simp [Pipeline.rest, hsender]) (by simp [hsender])
    · cases hstep
  | sent =>
    simp only [Pipeline.step] at hstep
    split at hstep
    next hsender =>
      cases hstep
      exact h.sendControl (by rw [Pipeline.rest, hsender]) (by rw [hsender]; rintro ⟨⟩)
    next batch hsender =>
      cases hstep
      have hrest : p.rest = batch := by rw [Pipeline.rest, hsender]
      obtain ⟨hdelivered, hbatch⟩ := CurrentKept.sendBatch h.delivered (hrest ▸ h.rest)
      obtain ⟨hsession, _⟩ := sendBatch_frame (p := p) batch
      refine ⟨hkept, hdelivered, ?_, ?_⟩
      · rw [hsession]
        exact hbatch
      · rw [hsession]
        exact h.closed
    · cases hstep
  | sendFailed =>
    simp only [Pipeline.step] at hstep
    split at hstep
    · cases hstep
      exact ⟨hkept, h.delivered, List.forall_mem_nil _, h.closed⟩
    · cases hstep
      exact ⟨hkept, h.delivered, List.forall_mem_nil _, h.closed⟩
    · cases hstep

end Reach

/-- A session that has just been made, with any limits. -/
def PipelineStart (p : Pipeline) : Prop :=
  ∃ maxTopics controlLimit, p = { session := { maxTopics, controlLimit } }

structure PipelineSound (p : Pipeline) : Prop where
  inOrder : ∀ key, (p.deliveredTo key).Sublist (messagesOf key p.offered)
  latest : p.sender = .waiting → p.quiet = true → ∀ key message,
    (p.session.topics.get? key).isSome = true → p.lastOffer.get? key = some message →
      (p.deliveredTo key).getLast? = some message
  bounded : p.session.pending.size ≤ p.session.topics.size + 1
  current : ∀ d ∈ p.delivered, d.current = true

variable {p : Pipeline}

theorem CurrentKept.start (h : PipelineStart p) : CurrentKept p ∧ QuietKept p := by
  obtain ⟨maxTopics, controlLimit, rfl⟩ := h
  have hkept : PipelineKept { session := { maxTopics, controlLimit } } := by
    constructor
    · intro key topic htopic
      cases htopic
    · exact fun _ => List.nil_sublist _
    · intro _ key message hoffer
      cases hoffer
    · intro key message hoffer
      cases hoffer
    · exact List.forall_mem_nil _
  refine ⟨⟨hkept, List.forall_mem_nil _, ?_, ?_⟩, fun _ _ _ => rfl⟩
  · exact List.forall_mem_nil _
  · intro hclosed
    cases hclosed

theorem PipelineKept.bounded (h : PipelineKept p) :
    p.session.pending.size ≤ p.session.topics.size + 1 := by
  have hsubset : p.session.pending.keys ⊆ statusMailboxKey :: p.session.topics.keys := by
    intro key hkey
    rcases h.keys key hkey with htopic | rfl
    · exact List.mem_cons_of_mem _ htopic
    · exact List.mem_cons_self
  have hlength := (List.subperm_of_subset p.session.pending.keys_nodup hsubset).length_le
  simpa [Dict.keys, Dict.size] using hlength

theorem PipelineKept.inOrder (h : PipelineKept p) (key : String) :
    (p.deliveredTo key).Sublist (messagesOf key p.offered) := by
  refine List.Sublist.trans ?_ (h.order key)
  rw [track, List.append_assoc]
  exact List.sublist_append_left _ _

theorem CurrentKept.sound (h : CurrentKept p) (hquiet : QuietKept p) : PipelineSound p := by
  refine ⟨h.kept.inOrder, fun hsender hyes key message _ hoffer => ?_, h.kept.bounded,
    h.delivered⟩
  have hlast := h.kept.last (by rw [hsender]; nofun) key message hoffer
  have hempty := hquiet hyes (by rw [hsender]; nofun) (by rw [hsender]; nofun)
  have hpending : p.session.pending.get? key = none := by
    rw [Dict.get?, hempty]
    rfl
  have hrest : p.rest = [] := by rw [Pipeline.rest, hsender]
  rw [track, hrest, hpending] at hlast
  simpa [messagesOf] using hlast

/-- In every run in which no declaration and no close takes a message out of reach that
the flush under way still holds, each topic is delivered in the order of its offers, a
flush with no offers since has delivered the last offer of every topic that is still
subscribed, the mailbox has at most one message for each topic and a status, and nothing
is delivered to a client that has released the topic or left. -/
theorem pipeline_delivers_current
    (h : ReachableVia PipelineStart Pipeline.step StaysInReach p) : PipelineSound p := by
  have hboth : CurrentKept p ∧ QuietKept p := by
    refine invariant (P := fun q => CurrentKept q ∧ QuietKept q) (fun _ => CurrentKept.start) ?_ h
    intro q action q' hkept hreach hstep
    exact ⟨hkept.1.step hreach hstep, hkept.2.step hstep⟩
  exact hboth.1.sound hboth.2

instance decidableStaysInReach (p : Pipeline) :
    (action : PipelineAction) → Decidable (StaysInReach p action)
  | .declare requested =>
    inferInstanceAs (Decidable (∀ entry ∈ p.rest, entry.1 ∉ p.session.released requested))
  | .close => inferInstanceAs (Decidable (p.rest = []))
  | .offer _ _ | .offerStatus _ _ _ | .pushControl _ | .flush | .sent | .sendFailed =>
    inferInstanceAs (Decidable True)

/-- Two quotes are offered, one is offered again while the flush sends, and the client
releases the other when the flush is through. -/
def twoQuotes : List PipelineAction :=
  [.declare [.text "quote:US:AAPL", .text "quote:US:TSLA"], .pushControl "ready",
    .offer "quote:US:AAPL" (.text "a1"), .offer "quote:US:TSLA" (.text "t1"), .flush, .sent,
    .offer "quote:US:AAPL" (.text "a2"), .sent, .sent, .declare [.text "quote:US:AAPL"],
    .flush, .sent]

/-- Two quotes of one topic. -/
theorem pipeline_delivers_current_of_two :
    ∃ p, run Pipeline.step {} twoQuotes = some p ∧
      p.deliveredTo "quote:US:AAPL" = [.text "a1", .text "a2"] ∧ PipelineSound p := by
  obtain ⟨p, hp, hdelivered⟩ :
      ∃ p, run step {} twoQuotes = some p ∧
        p.deliveredTo "quote:US:AAPL" = [.text "a1", .text "a2"] :=
    exists_run (by decide +kernel)
  have halong : Along step StaysInReach {} twoQuotes := by decide +kernel
  have hstart : ReachableVia PipelineStart step StaysInReach {} := .start ⟨_, _, rfl⟩
  exact ⟨p, hp, hdelivered, pipeline_delivers_current (hstart.run halong hp)⟩

/-- The client releases both topics while the first message is on its way, and still
gets the second one. -/
theorem released_topic_is_sent :
    ∃ p, Reachable PipelineStart Pipeline.step p ∧ ¬ PipelineSound p := by
  have hrun : ((run step {}
      [.declare [.text "quote:US:AAPL", .text "quote:US:TSLA"],
        .offer "quote:US:AAPL" (.text "a1"), .offer "quote:US:TSLA" (.text "t1"), .flush,
        .declare [], .sent]).any fun p =>
          p.delivered.any fun d => decide (d.current = false)) = true := by decide +kernel
  obtain ⟨p, hp, hsome⟩ := (Option.any_eq_true _ _).mp hrun
  obtain ⟨d, hd, hlate⟩ := List.any_eq_true.mp hsome
  refine ⟨p, reachable_of_run ⟨_, _, rfl⟩ hp, fun hsound => ?_⟩
  have hcurrent := hsound.current d hd
  rw [of_decide_eq_true hlate] at hcurrent
  cases hcurrent

end KAssetTrader.Stream
