import KAssetTrader.Stream.Timeouts

/-!
What the owner publishes and sends. A declaration that is given up may have been applied
all the same: when the demand comes back to the confirmed set before the ack is read, the
owner publishes LIVE for a set that the provider no longer streams.
-/

namespace KAssetTrader.Stream

open UpstreamWorld Transition

/-- A LIVE state names exactly what the provider streams, within the budget. -/
structure LiveSound (p : PublishedLive) : Prop where
  subscribed : ∀ target, target ∈ p.subscription ↔
    ∃ key ∈ p.budget.streaming, providerKey key = some target
  budget : BudgetSound p.demand p.capacity p.budget
  capacity : 1 ≤ p.capacity ∧ p.capacity ≤ maxUpstreamTopics

/-- A declaration is sent when every earlier one is answered or older than the timeout.
It declares the topics that the budget lets stream, none of them rejected before the end
of its cooldown. -/
structure SentSound (s : SentDeclaration) : Prop where
  spaced : ∀ d ∈ s.unanswered, declareAckTimeout ≤ s.sentAt - d.2
  declared : ∀ target, target ∈ s.frame.requested ↔
    ∃ key ∈ s.budget.streaming, providerKey key = some target
  budget : BudgetSound s.demand s.capacity s.budget
  capacity : 1 ≤ s.capacity ∧ s.capacity ≤ maxUpstreamTopics
  cooled : ∀ rejection ∈ s.rejections, rejection.1 ∈ s.frame.requested →
    rejection.2 ≤ s.budgetAt

structure UpstreamSound (w : UpstreamWorld) : Prop where
  live : ∀ p ∈ w.published, LiveSound p
  sent : ∀ s ∈ w.sent, SentSound s
  shrinks : ∀ action w', w.step action = some w' → w'.owner.capacity ≤ w.owner.capacity

/-- The demand does not come back to the confirmed set while the ack of the declaration
that the provider applied last has not been read. -/
def AckRead (w : UpstreamWorld) : UpstreamAction → Prop
  | .reconcile _ now budgetNow demand =>
    w.owner.awaitsAnswer now = false →
      (w.owner.budget budgetNow demand).streaming.toFinset = w.owner.confirmed →
        w.acked = w.applied
  | _ => True

def UpstreamStart (w : UpstreamWorld) : Prop :=
  ∃ (capacity : ℤ) (reconcileInterval clock : Moment), w = {
    owner := { capacity := max 1 (min capacity maxUpstreamTopics), reconcileInterval }
    clock := clock }

/-- The invariants of a run, with what was published and sent. -/
structure UpstreamKept (w : UpstreamWorld) : Prop where
  range : w.owner.InRange
  keys : KeysKept w
  subscription : SubscriptionKept w
  waiting : WaitingKept w
  cooldown : CooldownKept w
  live : ∀ p ∈ w.published, LiveSound p
  sent : ∀ s ∈ w.sent, SentSound s

variable {w w' : UpstreamWorld} {action : UpstreamAction}

theorem UpstreamKept.start (h : UpstreamStart w) : UpstreamKept w := by
  obtain ⟨capacity, reconcileInterval, clock, rfl⟩ := h
  constructor
  · constructor
    · exact le_max_left _ _
    · simp only [maxUpstreamTopics]
      omega
  · constructor
    · exact List.forall_mem_nil _
    · exact List.forall_mem_nil _
    · exact fun _ hmem => absurd hmem List.not_mem_nil
    · exact List.forall_mem_nil _
  · have hseen : ∀ requestId, ¬ UpstreamWorld.Seen { clock := clock, owner :=
        { capacity := max 1 (min capacity maxUpstreamTopics), reconcileInterval } } requestId := by
      rintro requestId (hid | hid | ⟨_, hanswer, _⟩)
      · cases hid
      · cases hid
      · exact absurd hanswer List.not_mem_nil
    refine ⟨?_, fun _ hid => absurd hid (hseen _), List.nodup_nil, ?_, ?_, fun _ _ => rfl,
      fun _ => rfl⟩
    · exact List.forall_mem_nil _
    · exact List.forall_mem_nil _
    · exact fun _ hmem => absurd hmem List.not_mem_nil
  · constructor
    · exact List.forall_mem_nil _
    · exact fun _ _ hmem => absurd hmem List.not_mem_nil
  · constructor
    · exact List.forall_mem_nil _
    · exact List.forall_mem_nil _
  · exact List.forall_mem_nil _
  · exact List.forall_mem_nil _

variable {now budgetNow : Moment} {demand : Dict String ℤ} {owner : TossUpstreamOwner}
  {budget : TopicBudget}

theorem UpstreamKept.publish (h : UpstreamKept w) (honline : w.online = true)
    (hread : w.acked = w.applied)
    (hreconcile : w.owner.reconcile now budgetNow demand = .live owner budget) :
    LiveSound { demand, capacity := owner.capacity, budget, subscription := w.subscription } := by
  obtain ⟨_, hbudget, hdesired, rfl⟩ := reconcile_live hreconcile
  have hconfirmed := h.subscription.confirmed honline hread
  rw [hconfirmed] at hdesired
  have hstreams : ∀ key, key ∈ budget.streaming ↔
      ∃ target ∈ w.subscription, downstreamKey target = some key := by
    intro key
    rw [← List.mem_toFinset, hdesired, List.mem_toFinset, List.mem_filterMap]
  refine ⟨fun target => ?_, ?_, h.range⟩
  · constructor
    · intro htarget
      obtain ⟨topic, hparse, rfl⟩ := h.keys.subscription target htarget
      have hdown := downstreamKey_upstreamKey hparse
      refine ⟨topic.key, (hstreams topic.key).mpr ⟨_, htarget, hdown⟩, ?_⟩
      rw [providerKey, hparse]
    · rintro ⟨key, hkey, hprovider⟩
      obtain ⟨found, hfound, hdown⟩ := (hstreams key).mp hkey
      have hback := ((h.keys.subscription found hfound).providerKey_iff.mp hdown).1
      rw [hprovider] at hback
      rw [Option.some.inj hback]
      exact hfound
  · rw [hbudget]
    exact allocateTopics_sound

theorem UpstreamKept.send (h : UpstreamKept w) {frame : DeclareFrame} (honline : w.online = true)
    (hnow : w.clock ≤ now) (hbudgetNow : now ≤ budgetNow)
    (hdemand : ∀ key ∈ demand.keys, IsTopicKey key)
    (hreconcile : w.owner.reconcile now budgetNow demand = .declares owner budget frame) :
    SentSound
      { frame, demand, capacity := owner.capacity, budget, sentAt := now,
        budgetAt := budgetNow, unanswered := w.waiting, rejections := w.rejections } := by
  obtain ⟨hready, hbudget, _, rfl⟩ := reconcile_declares hreconcile
  refine ⟨fun d hd => ?_, fun _ => declared_iff hreconcile, ?_, h.range, ?_⟩
  · have haged := h.waiting.aged_of_ready honline hnow hready d hd
    linarith
  · rw [hbudget]
    exact allocateTopics_sound
  · intro rejection hrejection hrequested
    obtain ⟨key, hkey, hprovider⟩ := (declared_iff hreconcile).mp hrequested
    rw [hbudget] at hkey
    have htopic := hdemand key (mem_demand_of_streaming hkey)
    have hdown := (isProviderKey_of_topicKey htopic hprovider).2
    rcases h.cooldown.blocked rejection hrejection with hended |
      ⟨other, tillTime, hother, hget, hle⟩
    · exact hended.trans (hnow.trans hbudgetNow)
    · rw [hdown] at hother
      cases hother
      by_contra hcooling
      have hblocked : (w.owner.blocked budgetNow).get? key = some tillTime := by
        rw [TossUpstreamOwner.blocked, Dict.get?_filter_eq_some]
        exact ⟨hget, decide_eq_true (by linarith)⟩
      refine (mem_streaming hkey).2 ?_
      by_contra hfree
      rw [(w.owner.blocked budgetNow).get?_eq_none.mpr hfree] at hblocked
      cases hblocked

/-- Only a reconciliation publishes or sends. -/
theorem published_of_step (hstep : w.step action = some w')
    (hother : ∀ loopNow now budgetNow demand,
      action ≠ .reconcile loopNow now budgetNow demand) :
    w'.published = w.published ∧ w'.sent = w.sent := by
  cases action with
  | connect =>
    simp only [step] at hstep
    split at hstep
    · cases hstep
    · cases hstep
      exact ⟨rfl, rfl⟩
  | reconcile loopNow now budgetNow demand =>
    exact absurd rfl (hother loopNow now budgetNow demand)
  | accept rejected answered =>
    simp only [step] at hstep
    split at hstep
    · cases hstep
    · split at hstep
      · cases hstep
        exact ⟨rfl, rfl⟩
      · cases hstep
  | refuse code answered =>
    simp only [step] at hstep
    split at hstep
    · cases hstep
    · cases hstep
      exact ⟨rfl, rfl⟩
  | receive now =>
    simp only [step] at hstep
    split at hstep
    · cases hstep
    · split at hstep
      · cases hstep
        unfold receive
        split
        · exact ⟨rfl, rfl⟩
        · dsimp only
          split
          · exact ⟨rfl, rfl⟩
          · exact ⟨rfl, rfl⟩
      · cases hstep
  | disconnect =>
    simp only [step] at hstep
    split at hstep
    · cases hstep
      exact ⟨rfl, rfl⟩
    · cases hstep

theorem UpstreamKept.reconciled (h : UpstreamKept w) {loopNow now budgetNow : Moment}
    (hread : AckRead w (.reconcile loopNow now budgetNow demand))
    (hstep : w.step (.reconcile loopNow now budgetNow demand) = some w') :
    (∀ p ∈ w'.published, LiveSound p) ∧ ∀ s ∈ w'.sent, SentSound s := by
  simp only [step] at hstep
  split at hstep
  next hallowed =>
    cases hstep
    obtain ⟨honline, hloop, hnow, hbudgetNow, _, _, hdemand⟩ := hallowed
    unfold reconcile
    split
    · exact ⟨h.live, h.sent⟩
    next owner budget hreconcile =>
      obtain ⟨hready, hbudget, hdesired, _⟩ := reconcile_live hreconcile
      rw [hbudget] at hdesired
      have hacked := hread hready hdesired
      refine ⟨fun p hp => ?_, h.sent⟩
      rcases List.mem_append.mp hp with hold | hnew
      · exact h.live p hold
      · obtain rfl := List.mem_singleton.mp hnew
        exact h.publish honline hacked hreconcile
    next owner budget frame hreconcile =>
      refine ⟨h.live, fun s hs => ?_⟩
      rcases List.mem_append.mp hs with hold | hnew
      · exact h.sent s hold
      · obtain rfl := List.mem_singleton.mp hnew
        exact h.send honline (hloop.trans hnow) hbudgetNow hdemand hreconcile
    · exact ⟨h.live, h.sent⟩
  · cases hstep

/-- A step whose ack is read at once keeps the declaration up to date. -/
theorem UpstreamKept.step (h : UpstreamKept w) (hread : AckRead w action)
    (hstep : w.step action = some w') : UpstreamKept w' := by
  have hboth : (∀ p ∈ w'.published, LiveSound p) ∧ ∀ s ∈ w'.sent, SentSound s := by
    by_cases hother : ∀ loopNow now budgetNow demand,
        action ≠ .reconcile loopNow now budgetNow demand
    · obtain ⟨hpublished, hsent⟩ := published_of_step hstep hother
      rw [hpublished, hsent]
      exact ⟨h.live, h.sent⟩
    · push Not at hother
      obtain ⟨loopNow, now, budgetNow, demand, rfl⟩ := hother
      exact h.reconciled hread hstep
  exact ⟨(capacity_step h.range hstep).1, h.keys.step hstep, h.subscription.step hstep,
    h.waiting.step hstep, h.cooldown.step h.keys hstep, hboth.1, hboth.2⟩

/-- In every run in which the demand does not come back to the confirmed set while the ack
of the last applied declaration is unread, a LIVE state names exactly what the provider
streams; declarations keep their distance, their budget and the cooldowns, and the
capacity never grows. -/
theorem upstream_declares_soundly
    (h : ReachableVia UpstreamStart UpstreamWorld.step AckRead w) : UpstreamSound w := by
  have hkept : UpstreamKept w :=
    invariant (fun _ => UpstreamKept.start) (fun _ _ _ hkept hread => hkept.step hread) h
  exact ⟨hkept.live, hkept.sent, fun _ _ hstep => (capacity_step hkept.range hstep).2⟩

instance decidableAckRead (w : UpstreamWorld) :
    (action : UpstreamAction) → Decidable (AckRead w action)
  | .reconcile _ now budgetNow demand =>
    inferInstanceAs (Decidable (w.owner.awaitsAnswer now = false →
      (w.owner.budget budgetNow demand).streaming.toFinset = w.owner.confirmed →
        w.acked = w.applied))
  | .connect | .accept _ _ | .refuse _ _ | .receive _ | .disconnect =>
    inferInstanceAs (Decidable True)

def oneEach (keys : List String) : Dict String ℤ :=
  keys.foldl (fun demand key => demand.set key 1) Dict.empty

/-- Two topics are declared, one of them is rejected, and the other one streams. -/
def oneRejected : List UpstreamAction :=
  let demand := oneEach ["quote:US:AAPL", "quote:US:TSLA"]
  [.connect, .reconcile 0 0 0 demand, .accept ["trade:us:TSLA"] true, .receive 500000,
    .reconcile 1000000 1000000 1000000 demand]

/-- The provider rejects one of two topics. -/
theorem upstream_declares_soundly_of_rejected :
    ∃ w, run UpstreamWorld.step {} oneRejected = some w ∧
      w.published.map (·.budget) = [⟨["quote:US:AAPL"], ["quote:US:TSLA"]⟩] ∧
      UpstreamSound w := by
  obtain ⟨w, hw, hpublished⟩ :
      ∃ w, run step {} oneRejected = some w ∧
        w.published.map (·.budget) = [⟨["quote:US:AAPL"], ["quote:US:TSLA"]⟩] :=
    exists_run (by decide +kernel)
  have halong : Along step AckRead {} oneRejected := by decide +kernel
  have hstart : ReachableVia UpstreamStart step AckRead {} :=
    .start ⟨maxUpstreamTopics, 1000000, 0, rfl⟩
  exact ⟨w, hw, hpublished, upstream_declares_soundly (hstart.run halong hw)⟩

/-- A second topic is declared and the provider applies it, but the ack is late. When the
declaration is given up the demand has come back to the first topic. -/
def ackIsLate : List UpstreamAction :=
  [.connect, .reconcile 0 0 0 (oneEach ["quote:US:AAPL"]), .accept [] true, .receive 500000,
    .reconcile 1000000 1000000 1000000 (oneEach ["quote:US:AAPL", "quote:US:TSLA"]),
    .accept [] true, .reconcile 6000000 6000000 6000000 (oneEach ["quote:US:AAPL"])]

/-- An acknowledgement that comes after the set has changed. -/
theorem live_names_a_stale_set :
    ∃ w, Reachable UpstreamStart UpstreamWorld.step w ∧ ¬ UpstreamSound w := by
  have hrun : ((run step {} ackIsLate).any fun w =>
      w.published.any fun p => decide (p.budget.streaming = ["quote:US:AAPL"] ∧
        "trade:us:TSLA" ∈ p.subscription)) = true := by decide +kernel
  obtain ⟨w, hw, hlate⟩ := (Option.any_eq_true _ _).mp hrun
  obtain ⟨p, hp, hstale⟩ := List.any_eq_true.mp hlate
  obtain ⟨hstreaming, hsubscribed⟩ := of_decide_eq_true hstale
  refine ⟨w, reachable_of_run ⟨maxUpstreamTopics, 1000000, 0, rfl⟩ hw, fun hsound => ?_⟩
  obtain ⟨key, hkey, hprovider⟩ := ((hsound.live p hp).subscribed _).mp hsubscribed
  rw [hstreaming, List.mem_singleton] at hkey
  subst hkey
  exact absurd hprovider (by decide +kernel)

end KAssetTrader.Stream
