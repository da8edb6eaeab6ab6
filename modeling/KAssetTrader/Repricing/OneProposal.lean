import KAssetTrader.Repricing.Commits

/-!
One watch fire, at most one proposal. The create commits inside a spawn, and the
terminal that keeps the fire from being judged again is written after the whole tick,
under a lease stamped when the tick began. What carries the result is that the claim of
a create that committed is never expired: then every other claim of the event has
expired, so that no other create of the event can be under a claim that is held.
-/

namespace KAssetTrader.Repricing

open Dict Transition

section Condition

variable (w : RepricingWorld)

/-- A claim whose create has committed and whose terminal has not been written. -/
def RepricingWorld.unsettled (row : ClaimRow) : Bool :=
  decide (row.state = .started) && w.commits.any fun c => decide (c.ownerToken = row.ownerToken)

/-- A create commits while its claim is held, and a claim whose create has committed is
not rolled over, by another tick or by the sweep, before its terminal is written. -/
def RepricingWorld.settledInTime : RepricingAction → Bool
  | .claim id _ =>
    (w.ticks.get? id).all fun tick =>
      match tick.phase with
      | .claiming (event :: _) =>
        match readLatest w.rows (tick.call event) with
        | some (.expiring _ rowId _) => (w.rows.get? rowId).all fun row => !w.unsettled row
        | _ => true
      | _ => true
  | .create id reply =>
    !reply.commits || (w.ticks.get? id).all fun tick =>
      match tick.phase with
      | .creating _ handle _ => w.rows.values.any fun row => row.heldBy handle
      | _ => true
  | .sweep now => w.rows.values.all fun row => !(row.lapsed now && w.unsettled row)
  | _ => true

abbrev SettledInTime (w : RepricingWorld) (action : RepricingAction) : Prop :=
  w.settledInTime action = true

end Condition

section Runs

structure OnceKept (w : RepricingWorld) : Prop where
  recorded : Recorded w.rows w.nextId w.tokens w.commits
  judged : ∀ id tick, w.ticks.get? id = some tick → Judged tick
  fresh : ∀ id tick handle, w.ticks.get? id = some tick → tick.phase.uncommitted = some handle →
    handle.ownerToken ∈ w.tokens ∧ ∀ c ∈ w.commits, c.ownerToken ≠ handle.ownerToken
  apart : ∀ id tick handle id' tick' handle', w.ticks.get? id = some tick →
    w.ticks.get? id' = some tick' → tick.phase.uncommitted = some handle →
      tick'.phase.uncommitted = some handle' → handle.ownerToken = handle'.ownerToken → id = id'

variable {w w' : RepricingWorld} {id : ℕ} {tick tick' : Tick}

section

variable (h : OnceKept w)
include h

/-- A tick moves on, with no claim whose create is still to come but the one it had. -/
theorem OnceKept.setTick (hget : w.ticks.get? id = some tick) (hjudged : Judged tick')
    (hsub : ∀ handle, tick'.phase.uncommitted = some handle → tick.phase.uncommitted = some handle)
    : OnceKept (w.setTick id tick') := by
  have hback : ∀ {id' tick'' handle}, (w.setTick id tick').ticks.get? id' = some tick'' →
      tick''.phase.uncommitted = some handle →
        ∃ before, w.ticks.get? id' = some before ∧ before.phase.uncommitted = some handle := by
    intro id' tick'' handle hget' hun
    rcases of_get?_set hget' with ⟨rfl, rfl⟩ | ⟨_, hget'⟩
    · exact ⟨tick, hget, hsub handle hun⟩
    · exact ⟨tick'', hget', hun⟩
  constructor
  · exact h.recorded
  · intro id' tick'' hget'
    rcases of_get?_set hget' with ⟨_, rfl⟩ | ⟨_, hget'⟩
    · exact hjudged
    · exact h.judged id' tick'' hget'
  · intro id' tick'' handle hget' hun
    obtain ⟨before, hbefore, hun'⟩ := hback hget' hun
    exact h.fresh id' before handle hbefore hun'
  · intro id₁ tick₁ handle₁ id₂ tick₂ handle₂ h₁ h₂ hun₁ hun₂
    obtain ⟨before₁, hbefore₁, hun₁'⟩ := hback h₁ hun₁
    obtain ⟨before₂, hbefore₂, hun₂'⟩ := hback h₂ hun₂
    exact h.apart id₁ before₁ handle₁ id₂ before₂ handle₂ hbefore₁ hbefore₂ hun₁' hun₂'

theorem OnceKept.begin (hjudged : Judged tick') (hnone : tick'.phase.uncommitted = none) :
    OnceKept (w.setTick id tick') := by
  have hback : ∀ {id' tick'' handle}, (w.setTick id tick').ticks.get? id' = some tick'' →
      tick''.phase.uncommitted = some handle → w.ticks.get? id' = some tick'' := by
    intro id' tick'' handle hget hun
    rcases of_get?_set hget with ⟨_, rfl⟩ | ⟨_, hget⟩
    · rw [hnone] at hun
      cases hun
    · exact hget
  constructor
  · exact h.recorded
  · intro id' tick'' hget
    rcases of_get?_set hget with ⟨_, rfl⟩ | ⟨_, hget⟩
    · exact hjudged
    · exact h.judged id' tick'' hget
  · exact fun id' tick'' handle hget hun => h.fresh id' tick'' handle (hback hget hun) hun
  · intro id₁ tick₁ handle₁ id₂ tick₂ handle₂ h₁ h₂ hun₁ hun₂
    exact h.apart id₁ tick₁ handle₁ id₂ tick₂ handle₂ (hback h₁ hun₁) (hback h₂ hun₂) hun₁ hun₂

theorem OnceKept.endTick : OnceKept (w.endTick id) := by
  constructor
  · exact h.recorded
  · exact fun id' tick' hget => h.judged id' tick' (of_get?_erase hget).2
  · exact fun id' tick' handle hget => h.fresh id' tick' handle (of_get?_erase hget).2
  · exact fun id₁ tick₁ handle₁ id₂ tick₂ handle₂ h₁ h₂ =>
      h.apart id₁ tick₁ handle₁ id₂ tick₂ handle₂ (of_get?_erase h₁).2
        (of_get?_erase h₂).2

theorem OnceKept.table {rows : Claims} (hrecorded : Recorded rows w.nextId w.tokens w.commits) :
    OnceKept { w with rows := rows } :=
  ⟨hrecorded, h.judged, h.fresh, h.apart⟩

/-- A key that is spent on a claim that was lost changes nothing. -/
theorem OnceKept.spent : OnceKept { w with nextId := w.nextId + 1 } := by
  obtain ⟨hrecorded, hjudged, hfresh, hapart⟩ := h
  refine ⟨⟨⟨fun rowId row hrow => ?_, ?_, ?_, ?_, ?_, ?_⟩, hrecorded.claims, hrecorded.once⟩,
    hjudged, hfresh, hapart⟩
  · exact Nat.lt_succ_of_lt (hrecorded.table.ids rowId row hrow)
  · exact hrecorded.table.positive
  · exact hrecorded.table.tokens
  · exact hrecorded.table.keys
  · exact hrecorded.table.oneSymbol
  · exact hrecorded.table.filled

theorem OnceKept.claim {rows : Claims} {event : CandidateEvent} {handle : ClaimHandle}
    {rest : List CandidateEvent} (hget : w.ticks.get? id = some tick)
    (hfresh : handle.ownerToken ∉ w.tokens) (hevent : handle.eventUuid = event.eventUuid)
    (hrecorded : Recorded rows (w.nextId + 1) (handle.ownerToken :: w.tokens) w.commits) :
    OnceKept { w.setTick id { tick with phase := .judging event handle rest } with
      rows := rows
      nextId := w.nextId + 1
      tokens := handle.ownerToken :: w.tokens } := by
  have hback : ∀ {id' tick' handle'},
      (w.ticks.set id { tick with phase := .judging event handle rest }).get? id' = some tick' →
        tick'.phase.uncommitted = some handle' →
          (id' = id ∧ handle' = handle) ∨ (id' ≠ id ∧ w.ticks.get? id' = some tick') := by
    intro id' tick' handle' hget' hun
    rcases of_get?_set hget' with ⟨rfl, rfl⟩ | hother
    · exact .inl ⟨rfl, (Option.some.inj hun).symm⟩
    · exact .inr hother
  constructor
  · exact hrecorded
  · intro id' tick' hget'
    rcases of_get?_set hget' with ⟨_, rfl⟩ | ⟨_, hget'⟩
    · refine ⟨(h.judged id tick hget).recorded, fun outcomes hphase => ?_, fun _ _ _ hphase => ?_⟩
      · cases hphase
      · rcases hphase with hphase | hphase
        · cases hphase
          exact hevent
        · cases hphase
    · exact h.judged id' tick' hget'
  · intro id' tick' handle' hget' hun
    rcases hback hget' hun with ⟨_, rfl⟩ | ⟨_, hget'⟩
    · exact ⟨List.mem_cons_self, fun c hc heq => hfresh (heq ▸ (h.recorded.claims c hc).1)⟩
    · obtain ⟨htoken, hcommits⟩ := h.fresh id' tick' handle' hget' hun
      exact ⟨List.mem_cons_of_mem _ htoken, hcommits⟩
  · intro id₁ tick₁ handle₁ id₂ tick₂ handle₂ h₁ h₂ hun₁ hun₂ hsame
    rcases hback h₁ hun₁ with ⟨rfl, rfl⟩ | ⟨_, h₁'⟩ <;>
      rcases hback h₂ hun₂ with ⟨rfl, rfl⟩ | ⟨_, h₂'⟩
    · rfl
    · exact absurd (hsame ▸ (h.fresh id₂ tick₂ handle₂ h₂' hun₂).1) hfresh
    · exact absurd (hsame ▸ (h.fresh id₁ tick₁ handle₁ h₁' hun₁).1) hfresh
    · exact h.apart id₁ tick₁ handle₁ id₂ tick₂ handle₂ h₁' h₂' hun₁ hun₂ hsame

end

variable {event : CandidateEvent} {rest : List CandidateEvent}

theorem OnceKept.commit {handle : ClaimHandle} (h : OnceKept w) (hget : w.ticks.get? id = some tick)
    (hphase : tick.phase = .creating event handle rest)
    (hheld : (w.rows.values.any fun row => row.heldBy handle) = true) (hjudged : Judged tick')
    (hnone : tick'.phase.uncommitted = none) :
    OnceKept { w.setTick id tick' with
      commits := ⟨event.eventUuid, handle.ownerToken⟩ :: w.commits } := by
  have hmine : tick.phase.uncommitted = some handle := by rw [hphase]; rfl
  obtain ⟨htoken, hcommits⟩ := h.fresh id tick handle hget hmine
  obtain ⟨rowId, row, hrow, hrowHeld⟩ := any_heldBy_iff.mp hheld
  have hnext : OnceKept (w.setTick id tick') := h.begin hjudged hnone
  rw [← (h.judged id tick hget).event event handle rest (.inr hphase)]
  refine ⟨h.recorded.commit htoken hcommits hrow hrowHeld, hnext.judged, ?_, hnext.apart⟩
  intro id' tick'' handle' hget' hun
  obtain ⟨htoken', hcommits'⟩ := hnext.fresh id' tick'' handle' hget' hun
  refine ⟨htoken', fun c hc => ?_⟩
  rcases List.mem_cons.mp hc with rfl | hc
  · intro hsame
    rcases of_get?_set hget' with ⟨_, rfl⟩ | ⟨hne, hget'⟩
    · rw [hnone] at hun
      cases hun
    · exact hne (h.apart id' tick'' handle' id tick handle hget' hget hun hmine hsame.symm)
  · exact hcommits' c hc

theorem onTick_eq_some {next : Tick → Option RepricingWorld}
    (h : w.onTick id next = some w') : ∃ tick, w.ticks.get? id = some tick ∧ next tick = some w' :=
  Option.bind_eq_some_iff.mp h

theorem settled_of_claim {ownerToken : ℕ} (hok : SettledInTime w (.claim id ownerToken))
    (hget : w.ticks.get? id = some tick) (hphase : tick.phase = .claiming (event :: rest)) :
    ∀ rowId generation,
      readLatest w.rows (tick.call event) = some (.expiring (tick.call event) rowId generation) →
      ∀ row, w.rows.get? rowId = some row → row.state = .started → ∀ c ∈ w.commits,
        c.ownerToken ≠ row.ownerToken := by
  intro rowId generation hread row hrow hstarted c hc howner
  simp only [SettledInTime, RepricingWorld.settledInTime, hget, Option.all_some, hphase, hread,
    hrow, RepricingWorld.unsettled, hstarted, decide_true, Bool.true_and,
    Bool.not_eq_eq_eq_not, Bool.not_true, List.any_eq_false] at hok
  exact hok c hc (decide_eq_true howner)

theorem settled_of_sweep {now : Instant} (hok : SettledInTime w (.sweep now)) :
    ∀ c ∈ w.commits, ∀ rowId row, w.rows.get? rowId = some row →
      row.ownerToken = c.ownerToken → row.lapsed now = false := by
  intro c hc rowId row hrow howner
  have hrowOk := List.all_eq_true.mp hok row
    (List.mem_map.mpr ⟨_, (get?_eq_some _).mp hrow, rfl⟩)
  cases hlapsed : row.lapsed now with
  | false => rfl
  | true =>
    have hstarted : row.state = .started := (of_decide_eq_true hlapsed).1
    simp only [hlapsed, RepricingWorld.unsettled, hstarted, decide_true, Bool.true_and,
      Bool.not_eq_eq_eq_not, Bool.not_true, List.any_eq_false] at hrowOk
    exact absurd (decide_eq_true howner.symm) (hrowOk c hc)

/-- A claim that is settled in time keeps one proposal for each. -/
theorem OnceKept.step {action : RepricingAction} (h : OnceKept w)
    (hok : SettledInTime w action) (hstep : w.step action = some w') : OnceKept w' := by
  cases action with
  | begin id now market roundCap polled =>
    simp only [RepricingWorld.step] at hstep
    split at hstep
    · cases hstep
      refine h.begin ⟨?_, ?_, ?_⟩ rfl
      · intro _ _ hget
        cases hget
      · intro _ hphase
        cases hphase
      · rintro _ _ _ (hphase | hphase) <;> cases hphase
    · cases hstep
  | select id =>
    obtain ⟨tick, hget, hnext⟩ := onTick_eq_some hstep
    have hresolved := (h.judged id tick hget).recorded
    split at hnext
    · split at hnext
      · cases hnext
        exact h.begin (Judged.resume hresolved) uncommitted_resume
      · cases hnext
        refine h.begin ⟨hresolved, ?_, ?_⟩ rfl
        · intro _ hphase
          cases hphase
        · rintro _ _ _ (hphase | hphase) <;> cases hphase
    · cases hnext
  | claim id ownerToken =>
    obtain ⟨tick, hget, hnext⟩ := onTick_eq_some hstep
    have hresolved := (h.judged id tick hget).recorded
    split at hnext
    next event rest hphase =>
      split at hnext
      · cases hnext
      next hfresh =>
        split at hnext
        · cases hnext
          exact (h.begin (Judged.resume hresolved) uncommitted_resume).spent
        next rows handle htry =>
          cases hnext
          obtain ⟨hrecorded, hevent, rfl⟩ := h.recorded.tryClaim hfresh
            (settled_of_claim hok hget hphase) htry
          exact h.claim hget hfresh hevent hrecorded
    · cases hnext
  | claimUnavailable id =>
    obtain ⟨tick, hget, hnext⟩ := onTick_eq_some hstep
    split at hnext
    · cases hnext
      exact h.begin (Judged.resume (h.judged id tick hget).recorded) uncommitted_resume
    · cases hnext
  | judge id judgement =>
    obtain ⟨tick, hget, hnext⟩ := onTick_eq_some hstep
    have hjudged := h.judged id tick hget
    split at hnext
    next event handle rest hphase =>
      cases hnext
      obtain ⟨hnow, hsub⟩ := judged_spec judgement rest
        hjudged.recorded (hjudged.event event handle rest (.inl hphase))
      refine h.setTick hget hnow fun handle' hun => ?_
      rw [hsub handle' hun, hphase]
      rfl
    · cases hnext
  | create id reply =>
    obtain ⟨tick, hget, hnext⟩ := onTick_eq_some hstep
    have hjudged := h.judged id tick hget
    split at hnext
    next event handle rest hphase =>
      cases hnext
      have hnow : Judged (tick.conclude event handle rest
          (interpretCreateResponse reply.response)) :=
        Judged.conclude hjudged.recorded fun _ => interpretCreateResponse_resolved
      cases hcommits : reply.commits with
      | false =>
        refine h.setTick hget hnow fun handle' hun => ?_
        rw [(uncommitted_conclude hun).1, hphase]
        rfl
      | true =>
        simp only [SettledInTime, RepricingWorld.settledInTime, hcommits, Bool.not_true,
          Bool.false_or, hget, Option.all_some, hphase] at hok
        refine h.commit hget hphase hok hnow (Option.eq_none_iff_forall_ne_some.mpr ?_)
        intro handle' hun
        obtain ⟨_, error, herror, hdisposition⟩ := uncommitted_conclude hun
        rw [not_commits_of_notStarted herror hdisposition] at hcommits
        cases hcommits
    · cases hnext
  | release id =>
    obtain ⟨tick, hget, hnext⟩ := onTick_eq_some hstep
    have hresolved := (h.judged id tick hget).recorded
    split at hnext
    next handle rest hphase =>
      split at hnext
      · cases hnext
        exact h.endTick
      next rows hrelease =>
        cases hnext
        have hmine : tick.phase.uncommitted = some handle := by rw [hphase]; rfl
        have hrecorded := h.recorded.release (h.fresh id tick handle hget hmine).2 hrelease
        exact (h.table hrecorded).begin (Judged.resume hresolved) uncommitted_resume
    · cases hnext
  | quarantine id now =>
    obtain ⟨tick, hget, hnext⟩ := onTick_eq_some hstep
    have hresolved := (h.judged id tick hget).recorded
    split at hnext
    · split at hnext
      · cases hnext
        exact h.begin (Judged.resume hresolved) uncommitted_resume
      next rows hfinalise =>
        cases hnext
        have hrecorded := h.recorded.finalise (by simp [awaitingReconcile]) hfinalise
        exact (h.table hrecorded).begin (Judged.resume hresolved) uncommitted_resume
    · cases hnext
  | quarantineUnavailable id =>
    obtain ⟨tick, hget, hnext⟩ := onTick_eq_some hstep
    split at hnext
    · cases hnext
      exact h.begin (Judged.resume (h.judged id tick hget).recorded) uncommitted_resume
    · cases hnext
  | finalise id now =>
    obtain ⟨tick, hget, hnext⟩ := onTick_eq_some hstep
    have hjudged := h.judged id tick hget
    split at hnext
    · cases hnext
      exact h.endTick
    next event outcome outcomes hphase =>
      have hnow : Judged { tick with phase := .finalising outcomes } := by
        refine ⟨hjudged.recorded, fun outcomes' hphase' p hp => ?_, ?_⟩
        · cases hphase'
          exact hjudged.written _ hphase p (List.mem_cons_of_mem _ hp)
        · rintro _ _ _ (hphase' | hphase') <;> cases hphase'
      have houtcome : outcome.state ≠ .expiredUnprocessed :=
        hjudged.written _ hphase (event, outcome) List.mem_cons_self
      split at hnext
      · cases hnext
        exact h.begin hnow rfl
      · split at hnext
        · cases hnext
          exact h.begin hnow rfl
        next rows hfinalise =>
          cases hnext
          exact (h.table (h.recorded.finalise houtcome hfinalise)).begin hnow rfl
    · cases hnext
  | crash id =>
    cases hstep
    exact h.endTick
  | sweep now =>
    cases hstep
    exact h.table (h.recorded.expire sweepExpired_writes (settled_of_sweep hok))

end Runs

variable {w : RepricingWorld}

def RepricingStart (w : RepricingWorld) : Prop := w = {}

theorem OnceKept.start (h : RepricingStart w) : OnceKept w := by
  rw [h]
  constructor
  · refine ⟨⟨?_, ?_, ?_, ?_, ?_, ?_⟩, ?_, List.nodup_nil⟩ <;> (intros; contradiction)
  · intro id tick hget
    cases hget
  · intro id tick handle hget
    cases hget
  · intro id tick handle id' tick' handle' hget
    cases hget

/-- In every run in which creates commit under claims that are held, and no claim is
rolled over between the commit of its create and its terminal, at most one create
commits a proposal for each watch fire. -/
theorem at_most_one_proposal
    (h : ReachableVia RepricingStart RepricingWorld.step SettledInTime w) (event : EventUuid) :
    (w.commits.map (·.eventUuid)).count event ≤ 1 := by
  have hkept : OnceKept w :=
    invariant (fun _ => OnceKept.start) (fun _ _ _ hs hok => hs.step hok) h
  exact List.nodup_iff_count_le_one.mp hkept.recorded.once event

def fire (eventUuid : EventUuid) (symbol : String) : CandidateEvent where
  eventUuid := eventUuid
  symbol := symbol
  market := "kr"
  outcome := "review_required"
  deliveryStatus := "delivered"
  deliveredAt := some 0

def createdReply (proposalId : String) : CreateReply where
  commits := true
  response := .succeeded (some proposalId)
  honest := by simp

def lostReply : CreateReply where
  commits := true
  response := .raised
  honest := by simp

/-- Two fires in one tick: one proposal is answered, the answer of the other is lost and
its fire is quarantined; a later tick finds nothing to claim. -/
def settledTick : List RepricingAction :=
  [.begin 1 0 "kr" 3 [fire 7 "005930", fire 8 "000660"], .select 1, .select 1, .select 1,
    .claim 1 100, .judge 1 (.draft "005930"), .create 1 (createdReply "P-1"),
    .claim 1 101, .judge 1 (.draft "000660"), .create 1 lostReply, .quarantine 1 60,
    .finalise 1 61, .finalise 1 61,
    .begin 2 1800000000 "kr" 3 [fire 7 "005930", fire 8 "000660"], .select 2, .select 2, .select 2,
    .finalise 2 1800000001]

/-- Two ticks, settled before the claim lapses. -/
theorem at_most_one_proposal_of_settled :
    ∃ w, run RepricingWorld.step {} settledTick = some w ∧
      (w.commits.map (·.eventUuid)).count 7 ≤ 1 ∧ w.commits.length = 2 := by
  obtain ⟨w, hw, hcommits⟩ :
      ∃ w, run RepricingWorld.step {} settledTick = some w ∧ w.commits.length = 2 :=
    exists_run (by decide +kernel)
  have halong : Along RepricingWorld.step SettledInTime {} settledTick := by decide +kernel
  have hstart : ReachableVia RepricingStart RepricingWorld.step SettledInTime {} := .start rfl
  exact ⟨w, hw, at_most_one_proposal (hstart.run halong hw) 7, hcommits⟩

/-- The judge of the second fire takes half an hour. The terminal of the first fire waits
for the end of the tick, its lease does not, and the next tick proposes again. -/
def slowTick : List RepricingAction :=
  [.begin 1 0 "kr" 3 [fire 7 "005930", fire 8 "000660"], .select 1, .select 1, .select 1,
    .claim 1 100, .judge 1 (.draft "005930"), .create 1 (createdReply "P-1"), .claim 1 101,
    .begin 2 1800000000 "kr" 3 [fire 7 "005930"], .select 2, .select 2,
    .claim 2 102, .judge 2 (.draft "005930"), .create 2 (createdReply "P-2")]

/-- A tick that outlives its claim commits beside the one that took it over. -/
theorem slow_tick_proposes_twice :
    ∃ w, Reachable RepricingStart RepricingWorld.step w ∧
      ¬ (w.commits.map (·.eventUuid)).count 7 ≤ 1 := by
  obtain ⟨w, hw, htwice⟩ :
      ∃ w, run RepricingWorld.step {} slowTick = some w ∧
        ¬ (w.commits.map (·.eventUuid)).count 7 ≤ 1 :=
    exists_run (by decide +kernel)
  exact ⟨w, reachable_of_run rfl hw, htwice⟩

end KAssetTrader.Repricing
