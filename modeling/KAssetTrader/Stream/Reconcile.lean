import KAssetTrader.Stream.Upstream

/-!
What one `reconcile` can do, and the capacity. A frame declares the topics that the budget
lets stream, under the provider's keys for them.
-/

namespace KAssetTrader.Stream

open TossUpstreamOwner UpstreamWorld Transition

variable {now budgetNow : Moment} {owner owner' : TossUpstreamOwner}

section Reconcile

variable {demand : Dict String ℤ} {budget : TopicBudget} {frame : DeclareFrame}
  {key target : String}

theorem reconcile_live (h : owner.reconcile now budgetNow demand = .live owner' budget) :
    owner.awaitsAnswer now = false ∧ budget = owner.budget budgetNow demand ∧
      budget.streaming.toFinset = owner.confirmed ∧
      owner' = { owner with inflight := none, rejected := owner.blocked budgetNow } := by
  simp only [TossUpstreamOwner.reconcile] at h
  split at h
  · cases h
  next hready =>
    split at h
    next hdesired =>
      cases h
      exact ⟨Bool.eq_false_of_not_eq_true hready, rfl, hdesired, rfl⟩
    · split at h
      · cases h
      · split at h
        · cases h
        · cases h

theorem reconcile_declares
    (h : owner.reconcile now budgetNow demand = .declares owner' budget frame) :
    owner.awaitsAnswer now = false ∧ budget = owner.budget budgetNow demand ∧
      (∃ keys, TossUpstreamOwner.upstreamKeys budget.streaming = some keys ∧
        declareFrame (keys.insertionSort (· ≤ ·)) (owner.declareSequence + 1) = some frame) ∧
      owner' = { owner with
        inflight := some (owner.declareSequence + 1, budget.streaming.toFinset, now)
        rejected := owner.blocked budgetNow
        declareSequence := owner.declareSequence + 1 } := by
  simp only [TossUpstreamOwner.reconcile] at h
  split at h
  · cases h
  next hready =>
    split at h
    · cases h
    · split at h
      · cases h
      next keys hkeys =>
        split at h
        · cases h
        next hframe =>
          cases h
          exact ⟨Bool.eq_false_of_not_eq_true hready, rfl, ⟨keys, hkeys, hframe⟩, rfl⟩

theorem reconcile_fails (h : owner.reconcile now budgetNow demand = .fails owner') :
    owner' = { owner with
      inflight := none
      rejected := owner.blocked budgetNow
      declareSequence := owner.declareSequence + 1 } := by
  simp only [TossUpstreamOwner.reconcile] at h
  split at h
  · cases h
  · split at h
    · cases h
    · split at h
      · cases h
        rfl
      · split at h
        · cases h
          rfl
        · cases h

theorem mem_upstreamKeys {keys targets : List String}
    (h : TossUpstreamOwner.upstreamKeys keys = some targets) :
    target ∈ targets ↔ ∃ key ∈ keys, providerKey key = some target := by
  induction keys generalizing targets with
  | nil =>
    cases h
    simp
  | cons head rest ih =>
    simp only [upstreamKeys] at h
    split at h
    next first others hfirst hothers =>
      cases h
      rw [List.mem_cons, ih hothers, List.exists_mem_cons_iff, hfirst]
      simp [eq_comm]
    · cases h

theorem requestId_declareFrame {keys : List String} {requestId : ℕ}
    (h : declareFrame keys requestId = some frame) : frame.requestId = requestId := by
  obtain ⟨grouped, _, rfl⟩ := Option.map_eq_some_iff.mp h
  rfl

theorem declared_iff (h : owner.reconcile now budgetNow demand = .declares owner' budget frame) :
    target ∈ frame.requested ↔ ∃ key ∈ budget.streaming, providerKey key = some target := by
  obtain ⟨_, _, ⟨keys, hkeys, hframe⟩, _⟩ := reconcile_declares h
  rw [mem_requested hframe, List.mem_insertionSort, mem_upstreamKeys hkeys]

def IsProviderKey (target : String) : Prop :=
  ∃ topic, parseTopic topic.key = .ok topic ∧ target = topic.upstreamKey

theorem isProviderKey_of_topicKey (hkey : IsTopicKey key) (h : providerKey key = some target) :
    IsProviderKey target ∧ downstreamKey target = some key := by
  obtain ⟨topic, hparse, heq⟩ := hkey
  rw [providerKey, hparse] at h
  cases h
  refine ⟨⟨topic, ?_, rfl⟩, ?_⟩
  · rw [heq]
    exact hparse
  · rw [downstreamKey_upstreamKey hparse, heq]

theorem IsProviderKey.providerKey_iff (h : IsProviderKey target) :
    downstreamKey target = some key ↔ providerKey key = some target ∧ IsTopicKey key := by
  obtain ⟨topic, hparse, rfl⟩ := h
  rw [downstreamKey_upstreamKey hparse]
  constructor
  · intro heq
    cases heq
    rw [providerKey, hparse]
    exact ⟨rfl, topic, hparse, rfl⟩
  · rintro ⟨hprovider, hkey⟩
    have hdown := (isProviderKey_of_topicKey hkey hprovider).2
    rw [downstreamKey_upstreamKey hparse] at hdown
    exact hdown

theorem mem_demand_of_streaming (h : key ∈ (owner.budget now demand).streaming) :
    key ∈ demand.keys := by
  by_contra hnone
  have hpositive := (mem_streaming h).1
  rw [demand.get?_eq_none.mpr hnone] at hpositive
  exact absurd hpositive (lt_irrefl 0)

end Reconcile

variable {action : UpstreamAction} {w w' : UpstreamWorld}

/-- What a step does; an answer that is lost is not under way. -/
inductive UpstreamWorld.Moves (w : UpstreamWorld) : UpstreamAction → UpstreamWorld → Prop where
  | connect : w.online = false → w.Moves .connect w.connect
  | reconcile {loopNow now budgetNow : Moment} {demand : Dict String ℤ} {after : UpstreamWorld} :
      w.online = true → w.clock ≤ now → now ≤ budgetNow → (∀ key ∈ demand.keys, IsTopicKey key) →
      after = { w with clock := budgetNow }.reconcile now budgetNow demand →
      w.Moves (.reconcile loopNow now budgetNow demand) { after with
        owner := { after.owner with nextReconcile := loopNow + after.owner.reconcileInterval } }
  | accept {frame : DeclareFrame} {rest : List DeclareFrame} {rejected : List String}
      {answered : Bool} {answers : List UpstreamAnswer} {subscribed : List String} :
      w.transit = frame :: rest → (∀ target ∈ rejected, target ∈ frame.requested) →
      subscribed = frame.requested.filter (fun target => decide (target ∉ rejected)) →
      (∀ answer ∈ answers, answer ∈ w.answers ∨
        answer = .ack { requestId := some frame.requestId, subscribed, rejected }) →
      w.Moves (.accept rejected answered) { w with
        transit := rest, subscription := subscribed, applied := some frame.requestId, answers }
  | refuse {frame : DeclareFrame} {rest : List DeclareFrame} {code : String} {answered : Bool}
      {answers : List UpstreamAnswer} : w.transit = frame :: rest →
      (∀ answer ∈ answers, answer ∈ w.answers ∨
        answer = .error { code, requestId := some frame.requestId }) →
      w.Moves (.refuse code answered) { w with transit := rest, answers }
  | receive {answer : UpstreamAnswer} {rest : List UpstreamAnswer} {now : Moment} :
      w.answers = answer :: rest → w.online = true → w.clock ≤ now →
      w.Moves (.receive now) ({ w with answers := rest, clock := now }.receive answer now)
  | disconnect : w.Moves .disconnect w.disconnect

theorem mem_answered {answered : Bool} {answers : List UpstreamAnswer}
    {answer found : UpstreamAnswer}
    (h : found ∈ if answered then answers ++ [answer] else answers) :
    found ∈ answers ∨ found = answer := by
  split at h
  · simpa using h
  · exact .inl h

/-- What a step of the upstream does, case by case. -/
theorem UpstreamWorld.moves_of_step (hstep : w.step action = some w') : w.Moves action w' := by
  cases action with
  | connect =>
    obtain ⟨honline, h⟩ := Option.ite_none_left_eq_some.mp hstep
    cases h
    exact .connect (Bool.eq_false_of_not_eq_true honline)
  | reconcile loopNow now budgetNow demand =>
    obtain ⟨⟨honline, hloop, hnow, hbudget, _, _, hdemand⟩, h⟩ :=
      Option.ite_none_right_eq_some.mp hstep
    cases h
    exact .reconcile honline (hloop.trans hnow) hbudget hdemand rfl
  | accept rejected answered =>
    simp only [step] at hstep
    split at hstep
    · cases hstep
    next htransit =>
      obtain ⟨hrejected, h⟩ := Option.ite_none_right_eq_some.mp hstep
      cases h
      exact .accept htransit hrejected rfl fun _ => mem_answered
  | refuse code answered =>
    simp only [step] at hstep
    split at hstep
    · cases hstep
    next htransit =>
      cases hstep
      exact .refuse htransit fun _ => mem_answered
  | receive now =>
    simp only [step] at hstep
    split at hstep
    · cases hstep
    next hanswers =>
      obtain ⟨⟨honline, hnow⟩, h⟩ := Option.ite_none_right_eq_some.mp hstep
      cases h
      exact .receive hanswers honline hnow
  | disconnect =>
    obtain ⟨_, h⟩ := Option.ite_none_right_eq_some.mp hstep
    cases h
    exact .disconnect

/-- The capacity stays within the limit of the provider. -/
def TossUpstreamOwner.InRange (owner : TossUpstreamOwner) : Prop :=
  1 ≤ owner.capacity ∧ owner.capacity ≤ maxUpstreamTopics

theorem applyError_capacity {error : UpstreamError} (h : owner.InRange)
    (herror : owner.applyError error now = some owner') :
    owner'.InRange ∧ owner'.capacity ≤ owner.capacity := by
  obtain ⟨hlow, hhigh⟩ := h
  simp only [applyError] at herror
  split at herror
  · cases herror
  · cases herror
  · cases herror
  · cases herror
  · cases herror
    simp only [TossUpstreamOwner.InRange, shrinkCapacity]
    generalize (if owner.confirmed = ∅ then owner.capacity else (owner.confirmed.card : ℤ)) = c
    omega
  · cases herror
    exact ⟨⟨hlow, hhigh⟩, le_refl _⟩
  · cases herror
    exact ⟨⟨hlow, hhigh⟩, le_refl _⟩

theorem capacity_reconcile (w : UpstreamWorld) (now budgetNow : Moment)
    (demand : Dict String ℤ) :
    (w.reconcile now budgetNow demand).owner.capacity = w.owner.capacity := by
  unfold UpstreamWorld.reconcile
  split
  · rfl
  next h =>
    rw [(reconcile_live h).2.2.2]
  next h =>
    rw [(reconcile_declares h).2.2.2]
  next h =>
    rw [reconcile_fails h]
    rfl

/-- The capacity is only ever lowered. -/
theorem capacity_step (h : w.owner.InRange) (hstep : w.step action = some w') :
    w'.owner.InRange ∧ w'.owner.capacity ≤ w.owner.capacity := by
  cases moves_of_step hstep with
  | connect | accept | refuse | disconnect => exact ⟨h, le_refl _⟩
  | @reconcile _ now budgetNow demand _ _ _ _ _ hafter =>
    have hsame := capacity_reconcile { w with clock := budgetNow } now budgetNow demand
    simp only [TossUpstreamOwner.InRange, hafter, hsame]
    exact ⟨h, le_refl _⟩
  | receive =>
    unfold receive
    split
    · exact ⟨h, le_refl _⟩
    · dsimp only
      split
      next herror => exact applyError_capacity h herror
      · exact ⟨h, le_refl _⟩

end KAssetTrader.Stream
