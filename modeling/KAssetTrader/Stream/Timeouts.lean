import KAssetTrader.Stream.Answers

/-!
The two clocks of the owner. A declaration that waits for its answer is the one in flight
or older than the timeout, and a topic stays blocked until the last cooldown that was read
for it ends.
-/

namespace KAssetTrader.Stream

open TossUpstreamOwner UpstreamWorld

variable {demand : Dict String ℤ} {now budgetNow : Moment} {action : UpstreamAction}
  {w w' : UpstreamWorld}

/-- A declaration without an answer is the one in flight, or older than the timeout. -/
structure WaitingKept (w : UpstreamWorld) : Prop where
  identified : ∀ answer ∈ w.answers, ∃ requestId, answer.requestId = some requestId
  aged : w.online = true → ∀ d ∈ w.waiting,
    (∃ desired, w.owner.inflight = some (d.1, desired, d.2)) ∨
      d.2 + declareAckTimeout ≤ w.clock

theorem WaitingKept.aged_of_ready (h : WaitingKept w) (honline : w.online = true)
    (hnow : w.clock ≤ now) (hready : w.owner.awaitsAnswer now = false) :
    ∀ d ∈ w.waiting, d.2 + declareAckTimeout ≤ now := by
  intro d hd
  rcases h.aged honline d hd with ⟨desired, hinflight⟩ | hold
  · rw [awaitsAnswer, hinflight] at hready
    have hlate := of_decide_eq_false hready
    linarith
  · exact hold.trans hnow

theorem WaitingKept.reconcile (h : WaitingKept w) (demand : Dict String ℤ)
    (honline : w.online = true) (hnow : w.clock ≤ now) (hbudget : now ≤ budgetNow) :
    WaitingKept ({ w with clock := budgetNow }.reconcile now budgetNow demand) := by
  unfold UpstreamWorld.reconcile
  split
  · refine ⟨h.identified, fun _ d hd => ?_⟩
    exact (h.aged honline d hd).imp_right fun hold => hold.trans (hnow.trans hbudget)
  next owner budget hreconcile =>
    have haged := h.aged_of_ready honline hnow (reconcile_live hreconcile).1
    exact ⟨h.identified, fun _ d hd => .inr ((haged d hd).trans hbudget)⟩
  next owner budget frame hreconcile =>
    obtain ⟨hready, _, ⟨keys, _, hframe⟩, rfl⟩ := reconcile_declares hreconcile
    have haged := h.aged_of_ready honline hnow hready
    refine ⟨h.identified, fun _ d hd => ?_⟩
    rcases List.mem_append.mp hd with hold | hnew
    · exact .inr ((haged d hold).trans hbudget)
    · obtain rfl := List.mem_singleton.mp hnew
      rw [requestId_declareFrame hframe]
      exact .inl ⟨_, rfl⟩
  · exact ⟨h.identified, fun hended => nomatch hended⟩

theorem aged_settle {owner : TossUpstreamOwner} {requestId : ℕ} {d : ℕ × Moment}
    (hother : some d.1 ≠ some requestId)
    (h : ∃ desired, owner.inflight = some (d.1, desired, d.2)) :
    ∃ desired, owner.settle (some requestId) = some (d.1, desired, d.2) := by
  obtain ⟨desired, hinflight⟩ := h
  refine ⟨desired, ?_⟩
  rw [settle, hinflight]
  dsimp only
  rw [if_neg]
  rintro (hnone | hsame)
  · cases hnone
  · exact hother hsame.symm

theorem WaitingKept.receive (h : WaitingKept w) {answer : UpstreamAnswer}
    {rest : List UpstreamAnswer} (hanswers : w.answers = answer :: rest)
    (honline : w.online = true) (hnow : w.clock ≤ now) :
    WaitingKept ({ w with answers := rest, clock := now }.receive answer now) := by
  have hidentified : ∀ answer ∈ rest, ∃ requestId, answer.requestId = some requestId := by
    intro found hfound
    exact h.identified found (by rw [hanswers]; exact List.mem_cons_of_mem _ hfound)
  obtain ⟨requestId, hid⟩ := h.identified answer (by rw [hanswers]; exact List.mem_cons_self)
  have haged : ∀ d ∈ w.waiting.filter fun d => decide (some d.1 ≠ answer.requestId),
      (∃ desired, w.owner.settle answer.requestId = some (d.1, desired, d.2)) ∨
        d.2 + declareAckTimeout ≤ now := by
    intro d hd
    obtain ⟨hmem, hother⟩ := List.mem_filter.mp hd
    rw [hid] at hother ⊢
    rcases h.aged honline d hmem with hinflight | hold
    · exact .inl (aged_settle (of_decide_eq_true hother) hinflight)
    · exact .inr (hold.trans hnow)
  cases answer with
  | ack found => exact ⟨hidentified, fun _ => haged⟩
  | error found =>
    simp only [UpstreamWorld.receive]
    split
    next owner herror =>
      refine ⟨hidentified, fun _ d hd => ?_⟩
      have hinflight := (applyError_keeps herror).2.2.2
      rw [hinflight]
      exact haged d hd
    · exact ⟨hidentified, by rintro ⟨⟩⟩

/-- A declaration that is not in flight has been answered or has timed out. -/
theorem WaitingKept.step (h : WaitingKept w) (hstep : w.step action = some w') :
    WaitingKept w' := by
  cases moves_of_step hstep with
  | connect =>
    constructor
    · exact List.forall_mem_nil _
    · exact fun _ _ hd => absurd hd List.not_mem_nil
  | @reconcile _ _ _ demand _ honline hnow hbudget _ hafter =>
    have hafter := hafter ▸ h.reconcile demand honline hnow hbudget
    exact ⟨hafter.identified, hafter.aged⟩
  | accept _ _ _ hanswers | refuse _ hanswers =>
    refine ⟨fun answer hanswer => ?_, h.aged⟩
    rcases hanswers answer hanswer with hold | rfl
    · exact h.identified answer hold
    · exact ⟨_, rfl⟩
  | receive hanswers honline hnow => exact h.receive hanswers honline hnow
  | disconnect => exact ⟨h.identified, fun hended => nomatch hended⟩

/-- Until the cooldown of a rejection that was read ends, the topic is blocked. -/
structure CooldownKept (w : UpstreamWorld) : Prop where
  bounded : ∀ rejection ∈ w.rejections, rejection.2 ≤ w.clock + rejectCooldown
  blocked : ∀ rejection ∈ w.rejections, rejection.2 ≤ w.clock ∨
    ∃ key tillTime, downstreamKey rejection.1 = some key ∧
      w.owner.rejected.get? key = some tillTime ∧ rejection.2 ≤ tillTime

section

variable (h : CooldownKept w) (hclock : w.clock ≤ w'.clock)
  (hrejections : w'.rejections = w.rejections)
include h hclock hrejections

theorem CooldownKept.congr (hrejected : w'.owner.rejected = w.owner.rejected) :
    CooldownKept w' := by
  refine ⟨fun rejection hmem => ?_, fun rejection hmem => ?_⟩
  · rw [hrejections] at hmem
    have hold := h.bounded rejection hmem
    linarith
  · rw [hrejections] at hmem
    rw [hrejected]
    exact (h.blocked rejection hmem).imp_left fun hold => hold.trans hclock

theorem CooldownKept.drop (hrejected : w'.owner.rejected = w.owner.blocked w'.clock) :
    CooldownKept w' := by
  refine ⟨fun rejection hmem => ?_, fun rejection hmem => ?_⟩
  · rw [hrejections] at hmem
    have hold := h.bounded rejection hmem
    linarith
  · rw [hrejections] at hmem
    rcases h.blocked rejection hmem with hold | ⟨key, tillTime, hkey, hget, hle⟩
    · exact .inl (hold.trans hclock)
    · by_cases hended : tillTime ≤ w'.clock
      · exact .inl (hle.trans hended)
      · refine .inr ⟨key, tillTime, hkey, ?_, hle⟩
        rw [hrejected, TossUpstreamOwner.blocked, Dict.get?_filter_eq_some]
        exact ⟨hget, decide_eq_true (not_le.mp hended)⟩

end

theorem CooldownKept.reconcile (h : CooldownKept w) (now : Moment) (demand : Dict String ℤ)
    (hbudget : w.clock ≤ budgetNow) :
    CooldownKept ({ w with clock := budgetNow }.reconcile now budgetNow demand) := by
  unfold UpstreamWorld.reconcile
  split
  · exact h.congr hbudget rfl rfl
  next hreconcile =>
    exact h.drop hbudget rfl (by rw [(reconcile_live hreconcile).2.2.2])
  next hreconcile =>
    exact h.drop hbudget rfl (by rw [(reconcile_declares hreconcile).2.2.2])
  next hreconcile =>
    exact h.drop hbudget rfl (by rw [reconcile_fails hreconcile]; rfl)

theorem get?_foldl_reject (tillTime : Moment) (targets : List String)
    (rejected : Dict String Moment) (key : String) :
    ((targets.foldl (TossUpstreamOwner.reject tillTime) rejected).get? key =
        if ∃ target ∈ targets, downstreamKey target = some key then some tillTime
        else rejected.get? key) := by
  induction targets generalizing rejected with
  | nil => simp
  | cons head rest ih =>
    rw [List.foldl_cons, ih]
    simp only [reject, List.exists_mem_cons_iff]
    cases hhead : downstreamKey head with
    | none => simp
    | some other =>
      rw [Dict.get?_set]
      by_cases hkey : key = other
      · subst hkey
        simp
      · have hne : ¬ other = key := fun heq => hkey heq.symm
        simp [hkey, hne]

theorem CooldownKept.receive (h : CooldownKept w) {answer : UpstreamAnswer}
    {rest : List UpstreamAnswer} (hnow : w.clock ≤ now)
    (hkeys : ∀ found, answer = .ack found → ∀ target ∈ found.rejected, IsProviderKey target) :
    CooldownKept ({ w with answers := rest, clock := now }.receive answer now) := by
  cases answer with
  | error found =>
    simp only [UpstreamWorld.receive]
    split
    next owner herror => exact h.congr hnow rfl (applyError_keeps herror).2.2.1
    · exact h.congr hnow rfl rfl
  | ack found =>
    refine ⟨fun rejection hmem => ?_, fun rejection hmem => ?_⟩
    · rcases List.mem_append.mp hmem with hold | hnew
      · exact (h.bounded rejection hold).trans (by simpa [UpstreamWorld.receive] using hnow)
      · obtain ⟨target, _, rfl⟩ := List.mem_map.mp hnew
        exact le_refl _
    · rcases List.mem_append.mp hmem with hold | hnew
      · have hbound := h.bounded rejection hold
        rcases h.blocked rejection hold with hended | ⟨key, tillTime, hkey, hget, hle⟩
        · exact .inl (hended.trans hnow)
        · refine .inr ?_
          have hafter := get?_foldl_reject (now + rejectCooldown) found.rejected
            w.owner.rejected key
          split at hafter
          · refine ⟨key, now + rejectCooldown, hkey, hafter, ?_⟩
            linarith
          · exact ⟨key, tillTime, hkey, hafter.trans hget, hle⟩
      · obtain ⟨target, htarget, rfl⟩ := List.mem_map.mp hnew
        obtain ⟨topic, hparse, rfl⟩ := hkeys found rfl target htarget
        have hdown := downstreamKey_upstreamKey hparse
        refine .inr ⟨topic.key, now + rejectCooldown, hdown, ?_, le_refl _⟩
        refine (get?_foldl_reject _ found.rejected w.owner.rejected topic.key).trans ?_
        rw [if_pos ⟨_, htarget, hdown⟩]

/-- A topic whose rejection was read is not declared before its cooldown ends. -/
theorem CooldownKept.step (h : CooldownKept w) (hkeys : KeysKept w)
    (hstep : w.step action = some w') : CooldownKept w' := by
  cases moves_of_step hstep with
  | connect | accept | refuse | disconnect => exact h.congr (le_refl _) rfl rfl
  | @reconcile _ now _ demand _ _ hnow hbudget _ hafter =>
    have hafter := hafter ▸ h.reconcile now demand (hnow.trans hbudget)
    exact ⟨hafter.bounded, hafter.blocked⟩
  | receive hanswers _ hnow =>
    refine h.receive hnow fun found hfound => ?_
    exact hkeys.answers found (by rw [hanswers, hfound]; exact List.mem_cons_self)

end KAssetTrader.Stream
