import KAssetTrader.Proposals.Turns

/-!
Retirement. A rung moves only along the graph and stays in a terminal state. The
operations that retire a proposal move all its rungs or none. A proposal that is
voided, fully expired or replaced is refused by every operation that would let it
be approved or sent, now and in every later state of the run.
-/

namespace KAssetTrader.Proposals

open Checked Transition

structure OrderProposalRung.Changes (before after : OrderProposalRung) : Prop where
  moves : OrderProposalRung.Moves before after
  final : before.state.Terminal → after.state = before.state

/-- A retirement changes nothing, or ends every rung. -/
def OrderProposal.Whole (before after : OrderProposal) : Prop :=
  after = before ∨ after.Ended

section Refusal

/-- No operation lets the proposal be approved or sent. -/
structure Store.Refuses (s : Store) (proposalId : ProposalId) (group : OrderProposal) :
    Prop where
  nonce : ∀ nonce requireRedispatchable,
    Raises (group.setApprovalNonce nonce requireRedispatchable)
  callback : ∀ callback actorChannel actorSubject now,
    Raises (group.consumePublishedProposalCallback proposalId callback actorChannel
      actorSubject now)
  approval : ∀ nonce now, Raises (group.consumeApprovalNonce proposalId nonce now)
  current : ∀ action nonce actorChannel actorSubject now,
    Raises (group.consumeCurrentCallback proposalId action nonce actorChannel actorSubject now)
  batch : ∀ batchId callback chatId telegramUserId now expectedMembers,
    (∃ member ∈ s.frozenMembers batchId callback.membershipRevision,
      member.proposalId = proposalId) →
    Raises (s.consumeApprovalBatchNonce batchId callback chatId telegramUserId now
      expectedMembers)
  dispatch : ∀ now expectedNonce,
    Raises (group.assertDispatchStillAuthorized now expectedNonce).2

variable {s : Store} {proposalId : ProposalId} {group : OrderProposal}

section

variable (h : approvalBlockReason group ≠ none)
include h

theorem callbackBlockReason_ne_none (nonce : String) :
    callbackBlockReason group nonce ≠ none := by
  unfold callbackBlockReason
  obtain ⟨reason, hreason⟩ := Option.ne_none_iff_exists'.mp h
  rw [hreason]
  dsimp only
  split
  · exact Option.some_ne_none _
  · split
    · exact Option.some_ne_none _
    · exact Option.some_ne_none _

theorem consumePublished_raises (callback : CallbackEnvelope ProposalDigest)
    (actorChannel : Channel) (actorSubject : String) (now : Instant) :
    Raises (group.consumePublishedProposalCallback proposalId callback actorChannel actorSubject
      now) := by
  rw [raises_iff]
  intro after hok
  obtain ⟨kind, hbinding, -⟩ := bind_ok_iff.mp hok
  obtain ⟨hnone, -⟩ := refuse_bind_ok.mp hbinding
  exact callbackBlockReason_ne_none h callback.nonce hnone

theorem batchMemberBlockReason_ne_none (now : Instant) :
    batchMemberBlockReason group now ≠ none := by
  obtain ⟨reason, hreason⟩ := Option.ne_none_iff_exists'.mp h
  unfold batchMemberBlockReason
  rw [hreason]
  simp

end

theorem consumableMember_raises {member : ApprovalBatchMember}
    (hget : s.proposals.get? member.proposalId = some group)
    (h : approvalBlockReason group ≠ none) (now : Instant) :
    Raises (s.consumableMember now member) := by
  rw [raises_iff]
  intro snapshot hok
  unfold Store.consumableMember at hok
  rw [hget] at hok
  obtain ⟨hnone, -⟩ := refuse_bind_ok.mp hok
  exact batchMemberBlockReason_ne_none h now (Option.map_eq_none_iff.mp hnone)

theorem dispatchRefusal_ne_none (h : approvalBlockReason group ≠ none) (now : Instant)
    (expectedNonce : Option String) : group.dispatchRefusal now expectedNonce ≠ none := by
  obtain ⟨reason, hreason⟩ := Option.ne_none_iff_exists'.mp h
  unfold OrderProposal.dispatchRefusal
  rw [hreason]
  simp

theorem refuses_of_blocked (hget : s.proposals.get? proposalId = some group)
    (h : approvalBlockReason group ≠ none) : s.Refuses proposalId group where
  nonce nonce requireRedispatchable := by
    rw [raises_iff]
    intro after hok
    obtain ⟨hnone, -⟩ := refuse_bind_ok.mp hok
    exact h (Option.map_eq_none_iff.mp hnone)
  callback := consumePublished_raises h
  approval nonce now := by
    rw [raises_iff]
    intro after hok
    obtain ⟨hnone, -⟩ := refuse_bind_ok.mp hok
    exact callbackBlockReason_ne_none h nonce hnone
  current action nonce actorChannel actorSubject now := by
    rw [raises_iff]
    intro after hok
    obtain ⟨hnone, -⟩ := refuse_bind_ok.mp hok
    exact callbackBlockReason_ne_none h nonce hnone
  batch batchId callback chatId telegramUserId now expectedMembers hmember := by
    obtain ⟨member, hmem, rfl⟩ := hmember
    rw [raises_iff]
    intro result hok
    obtain ⟨batch, -, hok⟩ := bind_ok_iff.mp hok
    obtain ⟨_, -, hok⟩ := bind_ok_iff.mp hok
    obtain ⟨-, hok⟩ := raiseIf_bind_ok.mp hok
    obtain ⟨snapshots, hsnapshots, -⟩ := bind_ok_iff.mp hok
    exact raises_iff.mp (mapM_raises hmem (consumableMember_raises hget h now)) snapshots
      hsnapshots
  dispatch now expectedNonce := by
    obtain ⟨reason, hreason⟩ :=
      Option.ne_none_iff_exists'.mp (dispatchRefusal_ne_none h now expectedNonce)
    refine ⟨.dispatchNoLongerAuthorized reason, ?_⟩
    unfold OrderProposal.assertDispatchStillAuthorized
    rw [hreason]

end Refusal

/-- The step has voided the proposal, has left all its rungs expired, or has
created a replacement of it. -/
inductive RetiredBy (s : Store) (operation : Operation) (t : Store) (proposalId : ProposalId) :
    Prop
  | voided (request : VoidRequest) (now : Instant) (group : OrderProposal) :
      operation = .onProposal proposalId (.voidProposal request now) →
      s.proposals.get? proposalId = some group →
      (group.voidProposal request now).2 = .ok () → RetiredBy s operation t proposalId
  | expired (after : OrderProposal) : t.proposals.get? proposalId = some after →
      (∀ rung ∈ after.rungs, rung.state = .expired) → RetiredBy s operation t proposalId
  | superseded : operation.Replaces proposalId → RetiredBy s operation t proposalId

structure Store.RetirementFinal (s : Store) : Prop where
  /-- Every rung got to its state along the graph. -/
  tracked : ∀ proposalId group, s.proposals.get? proposalId = some group →
    ∀ rung ∈ group.rungs, rung.Tracked
  changes : ∀ operation t, step s operation = some t → ∀ proposalId group,
    s.proposals.get? proposalId = some group → ∃ after, t.proposals.get? proposalId = some after ∧
      List.Forall₂ OrderProposalRung.Changes group.rungs after.rungs
  voids : ∀ proposalId group request now, s.proposals.get? proposalId = some group →
    group.Whole (group.voidProposal request now).1
  expires : ∀ proposalId group now, s.proposals.get? proposalId = some group →
    group.Whole (group.expireIfNeeded now).1
  sweeps : ∀ now, s.Rows OrderProposal.Whole (s.sweepExpired now).1
  refused : ∀ operation t, step s operation = some t → ∀ proposalId,
    RetiredBy s operation t proposalId → ∀ later u, run step t later = some u →
      ∃ group, u.proposals.get? proposalId = some group ∧ u.Refuses proposalId group

variable {s t : Store} {operation : Operation} {proposalId : ProposalId}

theorem forall₂_changes {rungs later : List OrderProposalRung}
    (h : List.Forall₂ OrderProposalRung.Moves rungs later) :
    List.Forall₂ OrderProposalRung.Changes rungs later :=
  h.imp fun _ _ hmoves => ⟨hmoves, hmoves.terminal⟩

theorem createProposal_replaces {creation : ProposalCreation} {now : Instant}
    (h : s.createProposal creation now = .ok t)
    (hsupersedes : creation.supersedesProposalId = some proposalId) :
    ∃ group, s.proposals.get? proposalId = some group := by
  obtain ⟨-, h⟩ := raiseIf_bind_ok.mp h
  obtain ⟨-, h⟩ := refuse_bind_ok.mp h
  obtain ⟨deadline, -, h⟩ := bind_ok_iff.mp h
  obtain ⟨-, h⟩ := refuse_bind_ok.mp h
  obtain ⟨-, h⟩ := raiseIf_bind_ok.mp h
  obtain ⟨-, h⟩ := raiseIf_bind_ok.mp h
  rw [hsupersedes] at h
  obtain ⟨superseded, hsuperseded, -⟩ := bind_ok_iff.mp h
  exact ⟨superseded, Store.getProposal_ok hsuperseded⟩

theorem RetiredBy.retired (hkept : s.Kept) (hstep : step s operation = some t)
    (h : RetiredBy s operation t proposalId) :
    ∃ after, t.proposals.get? proposalId = some after ∧ after.Retired := by
  cases h with
  | voided request now group hop hget hok =>
    subst hop
    obtain ⟨row, hrow, hstep⟩ := Option.bind_eq_some_iff.mp hstep
    cases hget.symm.trans hrow
    obtain ⟨after, hafter, hstep⟩ := Option.bind_eq_some_iff.mp hstep
    cases hafter
    cases hstep
    refine ⟨_, by rw [Store.get?_putProposal, if_pos rfl], .inr ?_⟩
    exact OrderProposal.voidProposal_ended (Prod.ext rfl hok)
  | expired after hafter hexpired =>
    refine ⟨after, hafter, .inr ?_⟩
    intro rung hmem
    rw [hexpired rung hmem]
    rfl
  | superseded hreplaces =>
    have hturn := step_turn hkept hstep proposalId
    obtain ⟨creation, now, rfl, hsupersedes⟩ := id hreplaces
    obtain ⟨group, hget⟩ := createProposal_replaces (eq_ok_of_toOption hstep) hsupersedes
    rw [hget] at hturn
    generalize t.proposals.get? proposalId = row at hturn
    cases hturn with
    | followed hnot => exact absurd hreplaces hnot
    | superseded newer later => exact ⟨_, rfl, .inl (Option.some_ne_none _)⟩

/-- Once a proposal is retired, no operation of the service brings it back. -/
theorem retirement_is_final (h : Reachable Empty step s) : s.RetirementFinal where
  tracked proposalId group hget := (kept_of_reachable h proposalId group hget).tracked
  changes operation t hstep proposalId group hget := by
    obtain ⟨after, hafter, hcontinues⟩ := step_continues (kept_of_reachable h) hstep hget
    exact ⟨after, hafter, forall₂_changes hcontinues.rungs⟩
  voids proposalId group request now _ := (group.voidProposal_retires request now).whole
  expires proposalId group now _ := (group.expireIfNeeded_retires now).whole
  sweeps now := (Store.sweepCandidates_retires s now (s.expiryCandidates now)).mono
    fun _ _ hretires => hretires.whole
  refused operation t hstep proposalId hretired later u hrun := by
    have hkept := kept_of_reachable h
    have hkeptNext := step_kept hkept hstep
    obtain ⟨after, hafter, hended⟩ := hretired.retired hkept hstep
    obtain ⟨group, hgroup, hcontinues⟩ := run_continues hkeptNext hrun hafter
    have hblocked : approvalBlockReason group ≠ none :=
      (hcontinues.kept (hkeptNext _ _ hafter)).blocked_iff.mpr (hcontinues.retired hended)
    exact ⟨group, hgroup, refuses_of_blocked hgroup hblocked⟩

/-- A proposal of an agent, the withdrawal of it by the same agent, and an attempt
to put its rung back. -/
def agentProposal : Operation :=
  .createProposal
    { proposalId := "a"
      symbol := "005930"
      market := "equity_kr"
      accountMode := "toss_live"
      side := "buy"
      orderType := "limit"
      rungs := [⟨0, "buy", 1, some 70000, none⟩]
      creatorAgentId := some "agent" }
    (seconds 1700000000)

def agentVoid : Operation :=
  .onProposal "a" (.voidProposal ⟨"withdrawn", some "agent", none, []⟩ (seconds 1700000060))

def restoreRung : Operation :=
  .onProposal "a" (.restoreRungAfterPreSendBlock 0 (seconds 1700000070) false)

/-- A void, and a restoration of its rung that is refused. -/
theorem retirement_is_final_of_void :
    ∃ s t u group, Reachable Empty step s ∧ step s agentVoid = some t ∧
      run step t [restoreRung] = some u ∧ u.proposals.get? "a" = some group ∧
      u.Refuses "a" group := by
  obtain ⟨s, hcreate, hnext⟩ := (Option.any_eq_true _ _).mp
    (show ((run step {} [agentProposal]).any fun s =>
        (s.proposals.get? "a").any (fun g =>
          decide ((g.voidProposal ⟨"withdrawn", some "agent", none, []⟩
            (seconds 1700000060)).2.toOption = some ())) &&
        (step s agentVoid).any fun t => (run step t [restoreRung]).isSome) = true by
        decide +kernel)
  simp only [Bool.and_eq_true, Option.any_eq_true, decide_eq_true_eq,
    Option.isSome_iff_exists] at hnext
  obtain ⟨⟨a, ha, hvoid⟩, t, hstep, u, hrun⟩ := hnext
  have hreach : Reachable Empty step s := reachable_of_run rfl hcreate
  have hretired : RetiredBy s agentVoid t "a" :=
    .voided _ _ a rfl ha (eq_ok_of_toOption hvoid)
  obtain ⟨group, hgroup, hrefuses⟩ :=
    (retirement_is_final hreach).refused agentVoid t hstep "a" hretired _ u hrun
  exact ⟨s, t, u, group, hreach, hstep, hrun, hgroup, hrefuses⟩

/-- Over every run of the service the stored state of a proposal is the one its rungs have, unless
it was replaced: it ends the approval exactly when every rung has ended. -/
theorem lifecycle_follows_rungs {group : OrderProposal} (h : Reachable Empty step s)
    (hget : s.proposals.get? proposalId = some group) :
    (group.rungs.map (·.rungIndex)).Nodup ∧
    (group.supersededByProposalId = none →
      group.lifecycleState = recomputeGroupState (group.rungs.map (·.state)) ∧
        (group.lifecycleState ∈ GroupState.approvalTerminal ↔
          ∀ rung ∈ group.rungs, rung.state.Terminal)) := by
  have hkept := kept_of_reachable h proposalId group hget
  refine ⟨hkept.indices, fun hcurrent => ?_⟩
  rcases hkept.lifecycle with hstate | ⟨-, hreplaced⟩
  · refine ⟨hstate, ?_⟩
    rw [hstate, recompute_approvalTerminal_iff, List.forall_mem_map]
  · exact absurd hcurrent hreplaced

/-- The state of a voided proposal, recomputed from its rungs. -/
theorem lifecycle_follows_rungs_of_void :
    ∃ s group, Reachable Empty step s ∧ s.proposals.get? "a" = some group ∧
      group.lifecycleState ∈ GroupState.approvalTerminal ∧
      ∀ rung ∈ group.rungs, rung.state.Terminal := by
  obtain ⟨s, hrun, hgroup⟩ := (Option.any_eq_true _ _).mp
    (show ((run step {} [agentProposal, agentVoid]).any fun s =>
        (s.proposals.get? "a").any fun g => decide (g.supersededByProposalId = none ∧
          g.lifecycleState ∈ GroupState.approvalTerminal)) = true by decide +kernel)
  obtain ⟨group, hget, hends⟩ := (Option.any_eq_true _ _).mp hgroup
  obtain ⟨hcurrent, hterminal⟩ := of_decide_eq_true hends
  have hreach : Reachable Empty step s := reachable_of_run rfl hrun
  exact ⟨s, group, hreach, hget, hterminal,
    ((lifecycle_follows_rungs hreach hget).2 hcurrent).2.mp hterminal⟩

end KAssetTrader.Proposals
