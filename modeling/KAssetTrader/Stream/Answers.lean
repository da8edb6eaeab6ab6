import KAssetTrader.Stream.Reconcile

/-!
What the answers tell the owner. Every declaration has an id of its own, so an ack with
the id of the declaration applied last tells the subscription.
-/

namespace KAssetTrader.Stream

open UpstreamWorld

variable {demand : Dict String ℤ} {now budgetNow : Moment} {action : UpstreamAction}
  {w w' : UpstreamWorld}

/-- Only the provider's keys for topics are declared, subscribed and rejected. -/
structure KeysKept (w : UpstreamWorld) : Prop where
  transit : ∀ frame ∈ w.transit, ∀ target ∈ frame.requested, IsProviderKey target
  subscription : ∀ target ∈ w.subscription, IsProviderKey target
  answers : ∀ found, .ack found ∈ w.answers → ∀ target ∈ found.rejected, IsProviderKey target
  rejections : ∀ rejection ∈ w.rejections, IsProviderKey rejection.1

theorem KeysKept.reconcile (h : KeysKept w) (now budgetNow : Moment)
    (hdemand : ∀ key ∈ demand.keys, IsTopicKey key) :
    KeysKept (w.reconcile now budgetNow demand) := by
  unfold UpstreamWorld.reconcile
  split
  · exact h
  · exact ⟨h.transit, h.subscription, h.answers, h.rejections⟩
  next owner budget frame hreconcile =>
    refine ⟨fun found hfound target htarget => ?_, h.subscription, h.answers, h.rejections⟩
    rcases List.mem_append.mp hfound with hold | hnew
    · exact h.transit found hold target htarget
    · obtain rfl := List.mem_singleton.mp hnew
      obtain ⟨key, hkey, hprovider⟩ := (declared_iff hreconcile).mp htarget
      rw [(reconcile_declares hreconcile).2.1] at hkey
      exact (isProviderKey_of_topicKey (hdemand key (mem_demand_of_streaming hkey))
        hprovider).1
  · exact ⟨h.transit, h.subscription, h.answers, h.rejections⟩

theorem KeysKept.receive (h : KeysKept w) {answer : UpstreamAnswer}
    (hanswer : ∀ found, answer = .ack found → ∀ target ∈ found.rejected, IsProviderKey target) :
    KeysKept (w.receive answer now) := by
  unfold UpstreamWorld.receive
  split
  next found =>
    refine ⟨h.transit, h.subscription, h.answers, fun rejection hrejection => ?_⟩
    rcases List.mem_append.mp hrejection with hold | hnew
    · exact h.rejections rejection hold
    · obtain ⟨target, htarget, rfl⟩ := List.mem_map.mp hnew
      exact hanswer found rfl target htarget
  · dsimp only
    split
    · exact ⟨h.transit, h.subscription, h.answers, h.rejections⟩
    · exact ⟨h.transit, h.subscription, h.answers, h.rejections⟩

/-- A step declares no key that the provider does not know. -/
theorem KeysKept.step (h : KeysKept w) (hstep : w.step action = some w') : KeysKept w' := by
  cases moves_of_step hstep with
  | connect =>
    refine ⟨?_, ?_, ?_, h.rejections⟩
    · exact List.forall_mem_nil _
    · exact List.forall_mem_nil _
    · exact fun _ hfound => absurd hfound List.not_mem_nil
  | @reconcile _ now budgetNow _ _ _ _ _ hdemand hafter =>
    have hkept : KeysKept { w with clock := budgetNow } :=
      ⟨h.transit, h.subscription, h.answers, h.rejections⟩
    have hafter := hafter ▸ hkept.reconcile now budgetNow hdemand
    exact ⟨hafter.transit, hafter.subscription, hafter.answers, hafter.rejections⟩
  | accept htransit hrejected hsubscribed hanswers =>
    rw [hsubscribed] at *
    have hframe := h.transit _ (htransit ▸ List.mem_cons_self)
    refine ⟨fun found hfound => ?_, fun target htarget => ?_, ?_, h.rejections⟩
    · exact h.transit found (htransit ▸ List.mem_cons_of_mem _ hfound)
    · exact hframe target (List.mem_filter.mp htarget).1
    · intro found hfound target htarget
      rcases hanswers _ hfound with hold | hnew
      · exact h.answers found hold target htarget
      · cases hnew
        exact hframe target (hrejected target htarget)
  | refuse htransit hanswers =>
    refine ⟨fun found hfound => ?_, h.subscription, fun found hfound => ?_, h.rejections⟩
    · exact h.transit found (htransit ▸ List.mem_cons_of_mem _ hfound)
    · exact h.answers found ((hanswers _ hfound).resolve_right nofun)
  | @receive _ rest now hanswers =>
    have hkept : KeysKept { w with answers := rest, clock := now } :=
      ⟨h.transit, h.subscription,
        fun found hfound => h.answers found (hanswers ▸ List.mem_cons_of_mem _ hfound),
        h.rejections⟩
    refine hkept.receive fun found hfound => ?_
    exact h.answers found (by rw [hanswers, hfound]; exact List.mem_cons_self)
  | disconnect => exact ⟨h.transit, h.subscription, h.answers, h.rejections⟩

/-- A declaration that the provider or the owner knows as applied, acked or answered. -/
def UpstreamWorld.Seen (w : UpstreamWorld) (requestId : ℕ) : Prop :=
  w.applied = some requestId ∨ w.acked = some requestId ∨
    ∃ answer ∈ w.answers, answer.requestId = some requestId

/-- Every declaration has an id of its own. An ack of the declaration applied last tells
the subscription, and when the owner has read it the confirmed set is the
subscription. -/
structure SubscriptionKept (w : UpstreamWorld) : Prop where
  sequence : ∀ frame ∈ w.transit, frame.requestId ≤ w.owner.declareSequence
  seen : ∀ requestId, w.Seen requestId → requestId ≤ w.owner.declareSequence
  distinct : (w.transit.map (·.requestId)).Nodup
  fresh : ∀ frame ∈ w.transit, ¬ w.Seen frame.requestId
  current : ∀ found, .ack found ∈ w.answers → w.applied = found.requestId →
    found.subscribed = w.subscription
  confirmed : w.online = true → w.acked = w.applied →
    w.owner.confirmed = (w.subscription.filterMap downstreamKey).toFinset
  idle : w.online = false → w.owner.confirmed = ∅

theorem SubscriptionKept.congr (h : SubscriptionKept w)
    (hsequence : w.owner.declareSequence ≤ w'.owner.declareSequence)
    (htransit : w'.transit = w.transit) (hsubscription : w'.subscription = w.subscription)
    (hanswers : w'.answers = w.answers) (happlied : w'.applied = w.applied)
    (hacked : w'.acked = w.acked)
    (hconfirmed : (w'.online = w.online ∧ w'.owner.confirmed = w.owner.confirmed) ∨
      (w'.online = false ∧ w'.owner.confirmed = ∅)) : SubscriptionKept w' := by
  have hseen : ∀ requestId, w'.Seen requestId ↔ w.Seen requestId := by
    intro requestId
    rw [UpstreamWorld.Seen, UpstreamWorld.Seen, happlied, hacked, hanswers]
  refine ⟨?_, fun requestId hid => ?_, ?_, ?_, ?_, fun honline heq => ?_, fun hoffline => ?_⟩
  · rw [htransit]
    exact fun frame hframe => (h.sequence frame hframe).trans hsequence
  · exact (h.seen requestId ((hseen requestId).mp hid)).trans hsequence
  · rw [htransit]
    exact h.distinct
  · rw [htransit]
    exact fun frame hframe hid => h.fresh frame hframe ((hseen _).mp hid)
  · rw [hanswers, happlied, hsubscription]
    exact h.current
  · rcases hconfirmed with ⟨hbefore, hsame⟩ | ⟨hended, _⟩
    · rw [hacked, happlied] at heq
      rw [hsame, hsubscription]
      rw [hbefore] at honline
      exact h.confirmed honline heq
    · rw [hended] at honline
      cases honline
  · rcases hconfirmed with ⟨hbefore, hsame⟩ | ⟨_, hnone⟩
    · rw [hbefore] at hoffline
      rw [hsame]
      exact h.idle hoffline
    · exact hnone

theorem SubscriptionKept.disconnect (h : SubscriptionKept w) :
    SubscriptionKept w.disconnect :=
  h.congr (le_refl _) rfl rfl rfl rfl rfl (.inr ⟨rfl, rfl⟩)

theorem SubscriptionKept.reconcile (h : SubscriptionKept w) (now budgetNow : Moment)
    (demand : Dict String ℤ) :
    SubscriptionKept (w.reconcile now budgetNow demand) := by
  unfold UpstreamWorld.reconcile
  split
  · exact h
  next owner budget hreconcile =>
    rw [(reconcile_live hreconcile).2.2.2]
    exact h.congr (le_refl _) rfl rfl rfl rfl rfl (.inl ⟨rfl, rfl⟩)
  next owner budget frame hreconcile =>
    obtain ⟨_, _, ⟨keys, _, hframe⟩, rfl⟩ := reconcile_declares hreconcile
    have hid := requestId_declareFrame hframe
    refine ⟨fun found hfound => ?_, fun requestId hseen => ?_, ?_, fun found hfound hseen => ?_,
      h.current, h.confirmed, h.idle⟩
    · rcases List.mem_append.mp hfound with hold | hnew
      · exact (h.sequence found hold).trans (Nat.le_succ _)
      · rw [List.mem_singleton.mp hnew, hid]
    · exact (h.seen requestId hseen).trans (Nat.le_succ _)
    · rw [List.map_append, List.nodup_append]
      refine ⟨h.distinct, List.nodup_singleton _, ?_⟩
      intro requestId hold other hnew heq
      obtain ⟨found, hfound, rfl⟩ := List.mem_map.mp hold
      rw [List.map_singleton, List.mem_singleton] at hnew
      have hle := h.sequence found hfound
      omega
    · rcases List.mem_append.mp hfound with hold | hnew
      · exact h.fresh found hold hseen
      · rw [List.mem_singleton.mp hnew, hid] at hseen
        have hle := h.seen _ hseen
        omega
  next owner hreconcile =>
    refine SubscriptionKept.disconnect ?_
    rw [reconcile_fails hreconcile]
    exact h.congr (Nat.le_succ _) rfl rfl rfl rfl rfl (.inl ⟨rfl, rfl⟩)

theorem applyError_keeps {owner owner' : TossUpstreamOwner} {error : UpstreamError}
    (h : owner.applyError error now = some owner') :
    owner'.declareSequence = owner.declareSequence ∧ owner'.confirmed = owner.confirmed ∧
      owner'.rejected = owner.rejected ∧ owner'.inflight = owner.settle error.requestId := by
  simp only [TossUpstreamOwner.applyError] at h
  split at h
  · cases h
  · cases h
  · cases h
  · cases h
  · cases h
    exact ⟨rfl, rfl, rfl, rfl⟩
  · cases h
    exact ⟨rfl, rfl, rfl, rfl⟩
  · cases h
    exact ⟨rfl, rfl, rfl, rfl⟩

variable (h : SubscriptionKept w)
include h

variable {answer : UpstreamAnswer} {rest : List UpstreamAnswer}

theorem SubscriptionKept.takeAnswer (hanswers : w.answers = answer :: rest) (now : Moment) :
    SubscriptionKept { w with answers := rest, clock := now } := by
  have hseen : ∀ requestId, UpstreamWorld.Seen { w with answers := rest, clock := now } requestId →
      w.Seen requestId := by
    rintro requestId (happlied | hacked | ⟨found, hfound, hid⟩)
    · exact .inl happlied
    · exact .inr (.inl hacked)
    · refine .inr (.inr ⟨found, ?_, hid⟩)
      rw [hanswers]
      exact List.mem_cons_of_mem _ hfound
  refine ⟨h.sequence, fun id hid => h.seen id (hseen id hid), h.distinct,
    fun frame hframe hid => h.fresh frame hframe (hseen _ hid), fun found hfound => ?_,
    h.confirmed, h.idle⟩
  exact h.current found (by rw [hanswers]; exact List.mem_cons_of_mem _ hfound)

theorem SubscriptionKept.ack (honline : w.online = true) {found : SubscriptionsAck}
    (hanswers : w.answers = .ack found :: rest)
    (hw' : w' = { w with answers := rest, clock := now }.receive (.ack found) now) :
    SubscriptionKept w' := by
  have hkept := h.takeAnswer hanswers now
  have hmem : UpstreamAnswer.ack found ∈ w.answers := by
    rw [hanswers]
    exact List.mem_cons_self
  have hseen : ∀ requestId, w'.Seen requestId → w.Seen requestId := by
    subst hw'
    rintro requestId (happlied | hacked | ⟨answer, hanswer, hid⟩)
    · exact .inl happlied
    · exact .inr (.inr ⟨_, hmem, hacked⟩)
    · refine .inr (.inr ⟨answer, ?_, hid⟩)
      rw [hanswers]
      exact List.mem_cons_of_mem _ hanswer
  have hfresh : ∀ frame ∈ w.transit, ¬ w'.Seen frame.requestId :=
    fun frame hframe hid => h.fresh frame hframe (hseen _ hid)
  have hle : ∀ requestId, w'.Seen requestId → requestId ≤ w.owner.declareSequence :=
    fun requestId hid => h.seen requestId (hseen requestId hid)
  subst hw'
  refine ⟨h.sequence, hle, h.distinct, hfresh, hkept.current, fun _ heq => ?_,
    fun hoffline => absurd (honline.symm.trans hoffline) Bool.true_eq_false.mp⟩
  have hsubscribed : found.subscribed = w.subscription := h.current found hmem heq.symm
  rw [← hsubscribed]
  rfl

theorem SubscriptionKept.receive (honline : w.online = true) (hanswers : w.answers = answer :: rest)
    (now : Moment) :
    SubscriptionKept ({ w with answers := rest, clock := now }.receive answer now) := by
  cases answer with
  | ack found => exact h.ack honline hanswers rfl
  | error found =>
    have hkept := h.takeAnswer hanswers now
    simp only [UpstreamWorld.receive]
    split
    next owner herror =>
      obtain ⟨hsequence, hconfirmed, _, _⟩ := applyError_keeps herror
      exact hkept.congr hsequence.ge rfl rfl rfl rfl rfl (.inl ⟨rfl, hconfirmed⟩)
    · refine SubscriptionKept.disconnect ?_
      exact hkept.congr (le_refl _) rfl rfl rfl rfl rfl (.inl ⟨rfl, rfl⟩)

theorem SubscriptionKept.take {frame : DeclareFrame} {rest : List DeclareFrame}
    (htransit : w.transit = frame :: rest) (hrest : w'.transit = rest) (howner : w'.owner = w.owner)
    (honline : w'.online = w.online) (hacked : w'.acked = w.acked)
    (happlied : w'.applied = some frame.requestId ∨ (w'.applied = w.applied ∧ w'.subscription =
      w.subscription))
    (hanswers : ∀ answer ∈ w'.answers, answer ∈ w.answers ∨ (answer.requestId = some
      frame.requestId ∧ ∀ found, answer = .ack found → w'.applied = some frame.requestId ∧
      found.subscribed = w'.subscription)) :
    SubscriptionKept w' := by
  have hframe : frame ∈ w.transit := by
    rw [htransit]
    exact List.mem_cons_self
  have hnodup := h.distinct
  rw [htransit, List.map_cons, List.nodup_cons] at hnodup
  have hseen : ∀ requestId, w'.Seen requestId →
      w.Seen requestId ∨ requestId = frame.requestId := by
    rintro requestId (hid | hid | ⟨answer, hanswer, hid⟩)
    · rcases happlied with hnew | ⟨hold, _⟩
      · rw [hnew] at hid
        exact .inr (Option.some.inj hid).symm
      · rw [hold] at hid
        exact .inl (.inl hid)
    · rw [hacked] at hid
      exact .inl (.inr (.inl hid))
    · rcases hanswers answer hanswer with hold | ⟨hnew, _⟩
      · exact .inl (.inr (.inr ⟨answer, hold, hid⟩))
      · rw [hnew] at hid
        exact .inr (Option.some.inj hid).symm
  have hmem : ∀ found ∈ w'.transit, found ∈ w.transit := by
    intro found hfound
    rw [hrest] at hfound
    rw [htransit]
    exact List.mem_cons_of_mem _ hfound
  refine ⟨fun found hfound => ?_, fun requestId hid => ?_, ?_, fun found hfound hid => ?_,
    fun found hfound heq => ?_, fun hon heq => ?_, fun hoff => ?_⟩
  · rw [howner]
    exact h.sequence found (hmem found hfound)
  · rw [howner]
    rcases hseen requestId hid with hold | rfl
    · exact h.seen requestId hold
    · exact h.sequence frame hframe
  · rw [hrest]
    exact hnodup.2
  · rcases hseen _ hid with hold | hnew
    · exact h.fresh found (hmem found hfound) hold
    · rw [hrest] at hfound
      exact hnodup.1 (List.mem_map.mpr ⟨found, hfound, hnew⟩)
  · rcases hanswers _ hfound with hold | ⟨_, hnew⟩
    · rcases happlied with happlied | ⟨happlied, hsame⟩
      · refine absurd (.inr (.inr ⟨_, hold, ?_⟩)) (h.fresh frame hframe)
        rw [← happlied, heq]
        rfl
      · rw [hsame]
        rw [happlied] at heq
        exact h.current found hold heq
    · exact (hnew found rfl).2
  · rw [hacked] at heq
    rcases happlied with happlied | ⟨happlied, hsame⟩
    · rw [happlied] at heq
      exact absurd (.inr (.inl heq)) (h.fresh frame hframe)
    · rw [happlied] at heq
      rw [honline] at hon
      rw [howner, hsame]
      exact h.confirmed hon heq
  · rw [honline] at hoff
    rw [howner]
    exact h.idle hoff

/-- A step keeps what acks tell of the subscription. -/
theorem SubscriptionKept.step (hstep : w.step action = some w') :
    SubscriptionKept w' := by
  cases moves_of_step hstep with
  | connect hoffline =>
    have hseen : ∀ requestId, ¬ w.connect.Seen requestId := by
      rintro requestId (hid | hid | ⟨_, hanswer, _⟩)
      · cases hid
      · cases hid
      · exact absurd hanswer List.not_mem_nil
    have hidle := h.idle hoffline
    refine ⟨?_, fun _ hid => absurd hid (hseen _), List.nodup_nil, ?_, ?_,
      fun _ _ => hidle, fun _ => hidle⟩
    · exact List.forall_mem_nil _
    · exact List.forall_mem_nil _
    · exact fun _ hfound => absurd hfound List.not_mem_nil
  | @reconcile _ now budgetNow demand _ _ _ _ _ hafter =>
    have hkept : SubscriptionKept { w with clock := budgetNow } :=
      h.congr (le_refl _) rfl rfl rfl rfl rfl (.inl ⟨rfl, rfl⟩)
    have hafter := hafter ▸ hkept.reconcile now budgetNow demand
    exact hafter.congr (le_refl _) rfl rfl rfl rfl rfl (.inl ⟨rfl, rfl⟩)
  | accept htransit _ _ hanswers =>
    refine h.take htransit rfl rfl rfl rfl (.inl rfl) fun answer hanswer => ?_
    refine (hanswers answer hanswer).imp_right fun hnew => ?_
    refine ⟨hnew ▸ rfl, fun found hfound => ?_⟩
    cases hnew.symm.trans hfound
    exact ⟨rfl, rfl⟩
  | refuse htransit hanswers =>
    refine h.take htransit rfl rfl rfl rfl (.inr ⟨rfl, rfl⟩) fun answer hanswer => ?_
    refine (hanswers answer hanswer).imp_right fun hnew => ?_
    exact ⟨hnew ▸ rfl, fun found hfound => nomatch hnew.symm.trans hfound⟩
  | receive hanswers honline => exact h.receive honline hanswers _
  | disconnect => exact h.disconnect

end KAssetTrader.Stream
