import KAssetTrader.Library.Checked
import KAssetTrader.Proposals.AutoSubmit
import KAssetTrader.Proposals.Operations
import KAssetTrader.Proposals.Supersession

/-!
Refused clicks and the commit lease. A click that a gate before the consumption
of its nonce refuses leaves the card as it was. The lease is asked for after the
nonce is consumed, and its refusal commits: the card of a click that meets a
running lease is used up although no rung was revalidated. Operations on the rungs keep the
card or withdraw its nonce.
-/

namespace KAssetTrader.Proposals

open Checked

namespace OrderProposal

/-- What an operation on the rungs does to the card: nothing, or it withdraws the
nonce. -/
structure CardStays (before after : OrderProposal) : Prop where
  nonce : after.approvalNonce = before.approvalNonce ∨ after.approvalNonce = none
  used : after.approvalNonceUsedAt = before.approvalNonceUsedAt
  dispatch : after.dispatch = before.dispatch
  approval : after.approval = before.approval
  confirmation : after.sourceAsof.lossCutConfirmation = before.sourceAsof.lossCutConfirmation

variable {group before middle after : OrderProposal} {rungIndex : ℤ} {now : Instant}

/-- Only the rungs and the state change, and the nonce may be withdrawn. -/
def RungsOnly (before after : OrderProposal) : Prop :=
  ∃ rungs lifecycleState approvalNonce,
    (approvalNonce = before.approvalNonce ∨ approvalNonce = none) ∧
    after = { before with rungs, lifecycleState, approvalNonce }

theorem RungsOnly.refl (group : OrderProposal) : group.RungsOnly group :=
  ⟨_, _, _, .inl rfl, rfl⟩

theorem RungsOnly.trans (h : before.RungsOnly middle) (h' : middle.RungsOnly after) :
    before.RungsOnly after := by
  obtain ⟨_, _, _, hnonce, rfl⟩ := h
  obtain ⟨_, _, _, hnonce', rfl⟩ := h'
  refine ⟨_, _, _, ?_, rfl⟩
  rcases hnonce' with rfl | hnone
  · exact hnonce
  · exact .inr hnone

theorem RungsOnly.card (h : before.RungsOnly after) : before.CardStays after := by
  obtain ⟨_, _, _, hnonce, rfl⟩ := h
  exact ⟨hnonce, rfl, rfl, rfl, rfl⟩

theorem expireRungIfNeeded_rungs {expired : Bool}
    (h : group.expireRungIfNeeded rungIndex now = .ok (after, expired)) :
    group.RungsOnly after := by
  obtain ⟨rung, -, h⟩ := bind_ok_iff.mp h
  split at h
  · split at h
    · cases h
      exact .refl group
    · obtain ⟨-, h⟩ := raiseIf_bind_ok.mp h
      dsimp only at h
      split at h
      · cases h
        exact ⟨_, _, _, .inr rfl, rfl⟩
      · cases h
        exact ⟨_, _, _, .inl rfl, rfl⟩
  · cases h
    exact .refl group

theorem expireMutableRungsIfNeeded_rungs
    (h : group.expireMutableRungsIfNeeded now = .ok after) : group.RungsOnly after := by
  unfold expireMutableRungsIfNeeded at h
  split at h
  · cases h
    exact .refl group
  · refine foldlM_invariant (P := fun g => group.RungsOnly g) ?_ (.refl group) h
    intro g rung _ g' hstays hstep
    obtain ⟨⟨next, expired⟩, hexpire, hnext⟩ := bind_ok_iff.mp hstep
    cases hnext
    exact hstays.trans (expireRungIfNeeded_rungs hexpire)

end OrderProposal

open OrderProposal Transition

section Refusals

variable {proposalId : ProposalId} {seen group after : OrderProposal} {click : ApproveClick}

/-- A refusal keeps the card: the row is as it was, or its deadline has passed and
its rungs have expired. -/
def OrderProposal.KeepsCard (before after : OrderProposal) : Prop :=
  after = before ∨
    before.CardStays after ∧ ∃ deadline now, before.terms.validUntil = some deadline ∧
      deadline ≤ now ∧ before.expireMutableRungsIfNeeded now = .ok after

def RefusalKeepsCard (proposalId : ProposalId) (seen group : OrderProposal)
    (click : ApproveClick) : Prop :=
  ∀ reason committed, group.handleApprove proposalId seen click = .refused reason committed →
    group.KeepsCard committed

/-- The click passes every gate before the lease, and the lease is running. -/
structure MeetsLease (proposalId : ProposalId) (seen group : OrderProposal)
    (click : ApproveClick) : Prop where
  preflight : ∃ kind, seen.assertPublishedProposalBinding proposalId click.callback = .ok kind
  firstWindow : click.firstWindow.allowed
  window : click.window.allowed
  binding : ∃ kind, group.assertPublishedProposalBinding proposalId click.callback = .ok kind
  validity : validityRefusal group click.window.observedAt = none
  confirmation : click.callback.action = .lc → ∃ source,
    group.validatedLossCutConfirmationSource proposalId click.callback.nonce .telegram
      click.actorSubject click.window.observedAt = .ok source
  lease : ∃ leaseUntil, group.commitLeaseUntil = some leaseUntil ∧
    click.window.observedAt < leaseUntil

variable {callback : CallbackEnvelope ProposalDigest} {actorChannel : Channel}
  {actorSubject : String} {now : Instant}

theorem consumePublished_ok_iff :
    (∃ consumed, group.consumePublishedProposalCallback proposalId callback actorChannel
      actorSubject now = .ok consumed) ↔
    (∃ kind, group.assertPublishedProposalBinding proposalId callback = .ok kind) ∧
      validityRefusal group now = none ∧
      (callback.action = .lc → ∃ source, group.validatedLossCutConfirmationSource proposalId
        callback.nonce actorChannel actorSubject now = .ok source) := by
  constructor
  · rintro ⟨consumed, h⟩
    obtain ⟨kind, hkind, h⟩ := bind_ok_iff.mp h
    obtain ⟨hvalid, h⟩ := refuse_bind_ok.mp h
    obtain ⟨source, hsource, -⟩ := bind_ok_iff.mp h
    refine ⟨⟨kind, hkind⟩, hvalid, ?_⟩
    intro haction
    rw [if_pos haction] at hsource
    exact ⟨source, hsource⟩
  · rintro ⟨⟨kind, hkind⟩, hvalid, hsource⟩
    have hread : ∃ source, (if callback.action = .lc then
        group.validatedLossCutConfirmationSource proposalId callback.nonce actorChannel
          actorSubject now
      else pure group.sourceAsof) = .ok source := by
      split
      next haction => exact hsource haction
      · exact ⟨group.sourceAsof, rfl⟩
    obtain ⟨source, hread⟩ := hread
    refine ⟨{ group with approvalNonceUsedAt := some now, sourceAsof := source }, ?_⟩
    refine bind_ok_iff.mpr ⟨kind, hkind, refuse_bind_ok.mpr ⟨hvalid, ?_⟩⟩
    exact bind_ok_iff.mpr ⟨source, hread, rfl⟩

theorem validatedLossCutConfirmationSource_ok {nonce : String} {source : SourceAsof}
    (h : group.validatedLossCutConfirmationSource proposalId nonce actorChannel actorSubject now =
      .ok source) :
    ∃ lossCutConfirmation, source = { group.sourceAsof with lossCutConfirmation } := by
  unfold validatedLossCutConfirmationSource at h
  split at h
  · cases h
  · obtain ⟨-, h⟩ := raiseIf_bind_ok.mp h
    obtain ⟨-, h⟩ := raiseIf_bind_ok.mp h
    obtain ⟨-, h⟩ := raiseIf_bind_ok.mp h
    exact ⟨_, (Except.ok.inj h).symm⟩

theorem consumePublished_ok
    (h : group.consumePublishedProposalCallback proposalId callback actorChannel actorSubject now =
      .ok after) :
    ∃ lossCutConfirmation, after = { group with
      approvalNonceUsedAt := some now
      sourceAsof := { group.sourceAsof with lossCutConfirmation } } := by
  obtain ⟨kind, -, h⟩ := bind_ok_iff.mp h
  obtain ⟨-, h⟩ := refuse_bind_ok.mp h
  obtain ⟨source, hsource, h⟩ := bind_ok_iff.mp h
  cases h
  split_ifs at hsource
  · obtain ⟨lossCutConfirmation, rfl⟩ := validatedLossCutConfirmationSource_ok hsource
    exact ⟨lossCutConfirmation, rfl⟩
  · cases hsource
    exact ⟨_, rfl⟩

theorem assertPublished_unused {kind : ApprovalCardKind}
    (h : group.assertPublishedProposalBinding proposalId callback = .ok kind) :
    group.approvalNonceUsedAt = none ∧ group.approvalNonce = some callback.nonce := by
  obtain ⟨-, h⟩ := refuse_bind_ok.mp h
  split at h
  · cases h
  · obtain ⟨_, hgate, -⟩ := bind_ok_iff.mp h
    unfold reraise at hgate
    cases hok : assertCallbackGate _ callback with
    | error reason =>
      rw [hok] at hgate
      cases hgate
    | ok u =>
      have hadmits := assertCallbackGate_ok hok
      exact ⟨by simpa using hadmits.unused, hadmits.nonce⟩

/-- An expiry without a passed deadline writes nothing. -/
theorem expireMutable_unchanged
    (hdeadline : ∀ detail, validUntilBlock group.validUntil now ≠ some (.expired, detail))
    (h : group.expireMutableRungsIfNeeded now = .ok after) : after = group := by
  unfold expireMutableRungsIfNeeded at h
  split at h
  · exact (Except.ok.inj h).symm
  · refine foldlM_invariant (P := fun g => g = group) ?_ rfl h
    rintro g rung - g' rfl hstep
    obtain ⟨⟨next, expired⟩, hexpire, hnext⟩ := bind_ok_iff.mp hstep
    cases hnext
    obtain ⟨locked, -, hexpire⟩ := bind_ok_iff.mp hexpire
    split at hexpire
    next hblock => exact absurd hblock (hdeadline _)
    · cases hexpire
      rfl

theorem expireMutable_keepsCard (h : group.expireMutableRungsIfNeeded now = .ok after) :
    group.KeepsCard after := by
  by_cases hdeadline : ∃ deadline, group.terms.validUntil = some deadline ∧ deadline ≤ now
  · obtain ⟨deadline, hvalid, hpassed⟩ := hdeadline
    exact .inr ⟨(expireMutableRungsIfNeeded_rungs h).card, deadline, now, hvalid, hpassed, h⟩
  · refine .inl (expireMutable_unchanged ?_ h)
    intro detail hblock
    obtain ⟨-, hmissing⟩ | ⟨⟨deadline, hvalid, hpassed⟩, -⟩ := validUntilBlock_eq_some hblock
    · cases hmissing
    · exact hdeadline ⟨deadline, hvalid, hpassed⟩

theorem rejectWindow_keepsCard {decision : ApprovalWindowDecision} {reason : CallbackRefusal}
    (h : group.rejectWindowCallback decision = .refused reason after) : group.KeepsCard after := by
  unfold rejectWindowCallback at h
  split at h
  · split at h
    next expired hexpire =>
      cases h
      exact expireMutable_keepsCard hexpire
    · cases h
  · cases h
    exact .inl rfl

theorem acquireCommitLease_none_iff {leaseSeconds : ℤ} :
    group.acquireCommitLease now leaseSeconds = none ↔
      ∃ leaseUntil, group.commitLeaseUntil = some leaseUntil ∧ now < leaseUntil := by
  unfold acquireCommitLease
  rw [ite_eq_left_iff]
  simp [Option.any_eq_true]

/-- A refusal keeps the card exactly when the click does not meet a lease. -/
theorem refusal_keeps_card_iff (proposalId : ProposalId) (seen group : OrderProposal)
    (click : ApproveClick) :
    RefusalKeepsCard proposalId seen group click ↔ ¬ MeetsLease proposalId seen group click := by
  constructor
  · intro hkeeps hmeets
    obtain ⟨kind, hpreflight⟩ := hmeets.preflight
    obtain ⟨consumed, hconsumed⟩ := consumePublished_ok_iff.mpr
      ⟨hmeets.binding, hmeets.validity, hmeets.confirmation⟩
    obtain ⟨source, hcolumns⟩ := consumePublished_ok hconsumed
    have hlease : consumed.acquireCommitLease click.window.observedAt = none := by
      rw [acquireCommitLease_none_iff, hcolumns]
      exact hmeets.lease
    have hrefused : group.handleApprove proposalId seen click = .refused .leaseHeld consumed := by
      unfold handleApprove
      simp only [hpreflight, hmeets.firstWindow, hmeets.window, not_true_eq_false, if_false,
        hconsumed, hlease]
    obtain ⟨kind', hbinding⟩ := hmeets.binding
    have hunused := (assertPublished_unused hbinding).1
    have hused : consumed.approvalNonceUsedAt = group.approvalNonceUsedAt := by
      rcases hkeeps _ _ hrefused with hsame | ⟨hstays, -⟩
      · rw [hsame]
      · exact hstays.used
    rw [hunused, hcolumns] at hused
    cases hused
  · intro hnot reason committed hrefused
    unfold handleApprove at hrefused
    split at hrefused
    · cases hrefused
      exact .inl rfl
    next kind hpreflight =>
      split at hrefused
      · exact rejectWindow_keepsCard hrefused
      next hfirst =>
        split at hrefused
        · exact rejectWindow_keepsCard hrefused
        next hwindow =>
          dsimp only at hrefused
          split at hrefused
          · cases hrefused
            exact .inl rfl
          next consumed hconsumed =>
            split at hrefused
            next hlease =>
              obtain ⟨hbinding, hvalid, hconfirm⟩ :=
                consumePublished_ok_iff.mp ⟨consumed, hconsumed⟩
              obtain ⟨source, hcolumns⟩ := consumePublished_ok hconsumed
              rw [acquireCommitLease_none_iff, hcolumns] at hlease
              exact absurd ⟨⟨kind, hpreflight⟩, not_not.mp hfirst, not_not.mp hwindow,
                hbinding, hvalid, hconfirm, hlease⟩ hnot
            · split at hrefused
              · cases hrefused
              · cases hrefused

end Refusals

def publishCard (nonce : String) (attemptId : AttemptId) (kind : ApprovalCardKind)
    (revision : ℤ) (now : Instant) : List Operation :=
  [.onProposal "a" (.setApprovalNonce nonce false),
    .startApprovalDispatch "a"
      { attemptId
        binding := ⟨attemptId, kind, revision, proposalDigest kind revision "a" (some nonce)⟩
        payloadChars := 10 } now,
    .finishApprovalDispatch "a" attemptId ⟨true, false, some 1, 10, none⟩ (some "chat")
      (some "stamp") now]

def approveCallback (nonce : String) (attemptId : AttemptId) (kind : ApprovalCardKind)
    (revision : ℤ) : CallbackEnvelope ProposalDigest where
  action := .op
  subjectShort := short "a"
  attemptId
  membershipRevision := revision
  membershipDigest := proposalDigest kind revision "a" (some nonce)
  nonce

/-- A proposal whose first approval has ended with a card for reconfirmation. -/
def reconfirmedProposal : List Operation :=
  buyOne "a" none :: publishCard "first" 1 .manual 1 (seconds 1700000001) ++
    [.onProposal "a" (.consumePublishedProposalCallback (approveCallback "first" 1 .manual 1)
        .telegram "" (seconds 1700000060)),
      .onProposal "a" (.acquireCommitLease (seconds 1700000060) 10),
      .onProposal "a" (.recordApproval "user" (seconds 1700000060)),
      .onProposal "a" (.transitionRung 0 .revalidating { updatedAt := seconds 1700000061 }),
      .onProposal "a" (.markNeedsReconfirm 0 (seconds 1700000061))] ++
    publishCard "second" 2 .reconfirm 2 (seconds 1700000062)

/-- The click on the card for reconfirmation, five seconds after the first one. -/
def secondClick : ApproveClick where
  callback := approveCallback "second" 2 .reconfirm 2
  telegramUserId := "user"
  firstWindow := ⟨.allow, seconds 1700000065, "stamp"⟩
  window := ⟨.allow, seconds 1700000065, "stamp"⟩

/-- A click that meets the lease has consumed the nonce of its card. -/
theorem lease_burns_reconfirm_card :
    ∃ s group, Reachable Empty step s ∧ s.proposals.get? "a" = some group ∧
      ¬ RefusalKeepsCard "a" group group secondClick := by
  obtain ⟨s, hrun, hnext⟩ := (Option.any_eq_true _ _).mp
    (show ((run step {} reconfirmedProposal).any fun s => (s.proposals.get? "a").any fun group =>
        (group.handleApprove "a" group secondClick).refusal?.any fun refusal =>
          decide (refusal.2.approvalNonceUsedAt ≠ group.approvalNonceUsedAt)) = true by
        decide +kernel)
  simp only [Option.any_eq_true, decide_eq_true_eq] at hnext
  obtain ⟨group, hget, ⟨reason, committed⟩, hrefusal, hused⟩ := hnext
  refine ⟨s, group, reachable_of_run rfl hrun, hget, ?_⟩
  intro hkeeps
  rcases hkeeps reason committed (Progress.of_refusal? hrefusal) with hsame | ⟨hstays, -⟩
  · exact hused (by rw [hsame])
  · exact hused hstays.used

end KAssetTrader.Proposals
