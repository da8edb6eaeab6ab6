import KAssetTrader.Proposals.Lease

/-!
What the operations write on a row that later decisions rest on: the approval nonce, the verdict
of the loss guard, the creator and the deadline. Three operations issue a nonce, one records a
verdict, and the others keep what is there or withdraw the nonce.
-/

namespace KAssetTrader.Proposals

open Store Checked Transition

section Rows

variable {group before middle after : OrderProposal} {proposalId : ProposalId}

def RowOperation.issued? : RowOperation → Option String
  | .setApprovalNonce nonce _ => some nonce
  | .issueLossCutConfirmation _ nonce _ _ _ _ => some nonce
  | .restoreApprovalAfterWindowBlock nonce false => some nonce
  | _ => none

def RowOperation.verdict? : RowOperation → Option LossGuardVerdict
  | .recordLossGuardVerdict rungIndex error now =>
    some ⟨true, "server_revalidation", now, rungIndex,
      String.ofList ((error.getD "").toList.take 500)⟩
  | _ => none

namespace OrderProposal

/-- What becomes of a row on which a nonce and a verdict are put. -/
structure Marks (issued : Option String) (verdict : Option LossGuardVerdict)
    (before after : OrderProposal) : Prop where
  validUntil : after.terms.validUntil = before.terms.validUntil
  creator : after.sourceAsof.creatorAgentId = before.sourceAsof.creatorAgentId
  verdict : after.sourceAsof.lossGuardVerdict = verdict.or before.sourceAsof.lossGuardVerdict
  nonce : ∀ nonce ∈ after.approvalNonce, issued = some nonce ∨ nonce ∈ before.approvalNonce

abbrev Unmarked (before after : OrderProposal) : Prop := Marks none none before after

theorem unmarked_of_nonce (hnonce : after.approvalNonce = before.approvalNonce ∨
      after.approvalNonce = none)
    (hvalid : after.terms.validUntil = before.terms.validUntil)
    (hcreator : after.sourceAsof.creatorAgentId = before.sourceAsof.creatorAgentId)
    (hverdict : after.sourceAsof.lossGuardVerdict = before.sourceAsof.lossGuardVerdict) :
    before.Unmarked after where
  validUntil := hvalid
  creator := hcreator
  verdict := hverdict
  nonce nonce h := by
    obtain hsame | hnone := hnonce
    · exact .inr (hsame ▸ h)
    · rw [hnone] at h
      cases h

theorem unmarked_refl (group : OrderProposal) : group.Unmarked group :=
  unmarked_of_nonce (.inl rfl) rfl rfl rfl

theorem Unmarked.trans (h : before.Unmarked middle) (h' : middle.Unmarked after) :
    before.Unmarked after where
  validUntil := h'.validUntil.trans h.validUntil
  creator := h'.creator.trans h.creator
  verdict := h'.verdict.trans h.verdict
  nonce nonce hafter := by
    obtain hnone | hmiddle := h'.nonce nonce hafter
    · cases hnone
    · exact h.nonce nonce hmiddle

theorem RungsOnly.unmarked (h : before.RungsOnly after) : before.Unmarked after := by
  obtain ⟨rungs, lifecycleState, approvalNonce, hnonce, rfl⟩ := h
  exact unmarked_of_nonce hnonce rfl rfl rfl

theorem transitionLockedRung_unmarked {rung : OrderProposalRung} {newState : RungState}
    {audit : RungAudit} (h : group.transitionLockedRung rung newState audit = .ok after) :
    group.Unmarked after := by
  obtain ⟨-, h⟩ := raiseIf_bind_ok.mp h
  cases h
  exact unmarked_of_nonce (.inl rfl) rfl rfl rfl

theorem moveAll_unmarked {move : OrderProposalRung → OrderProposalRung}
    {columns : OrderProposal → OrderProposal} (h : ∀ g : OrderProposal, g.Unmarked (columns g)) :
    group.Unmarked (group.moveAll move columns).1 := by
  unfold moveAll
  dsimp only
  split
  · exact unmarked_of_nonce (.inl rfl) rfl rfl rfl
  · refine Unmarked.trans ?_ (h _)
    exact unmarked_of_nonce (.inl rfl) rfl rfl rfl

theorem acceptEvidence_unmarked {rungIndex : ℤ} {evidence : FillEvidence} {now : Instant}
    (h : group.acceptEvidence rungIndex evidence now = .ok after) : group.Unmarked after := by
  obtain ⟨locked, -, h⟩ := bind_ok_iff.mp h
  dsimp only at h
  split_ifs at h
  · cases h
    exact unmarked_of_nonce (.inl rfl) rfl rfl rfl
  · cases h
    exact unmarked_of_nonce (.inl rfl) rfl rfl rfl
  · cases h
    exact unmarked_of_nonce (.inl rfl) rfl rfl rfl
  · exact transitionLockedRung_unmarked h

theorem voidProposal_unmarked {request : VoidRequest} {now : Instant} :
    group.Unmarked (group.voidProposal request now).1 := by
  unfold voidProposal
  dsimp only
  split
  · exact unmarked_refl group
  · split
    · exact unmarked_refl group
    · split
      · exact unmarked_refl group
      · split
        · exact unmarked_refl group
        · exact moveAll_unmarked fun _ => unmarked_of_nonce (.inr rfl) rfl rfl rfl

end OrderProposal

open OrderProposal

theorem RowOperation.run_marks {operation : RowOperation}
    (h : operation.run proposalId group = some after) :
    Marks operation.issued? operation.verdict? group after := by
  cases operation with
  | transitionRung rungIndex newState audit =>
    obtain ⟨rung, -, h⟩ := bind_ok_iff.mp (eq_ok_of_toOption h)
    exact transitionLockedRung_unmarked h
  | markNeedsReconfirm rungIndex now =>
    obtain ⟨rung, -, h⟩ := bind_ok_iff.mp (eq_ok_of_toOption h)
    exact transitionLockedRung_unmarked h
  | sweepStaleRung rungIndex now =>
    obtain ⟨rung, -, h⟩ := bind_ok_iff.mp (eq_ok_of_toOption h)
    split_ifs at h
    · cases h
      exact unmarked_of_nonce (.inl rfl) rfl rfl rfl
    · exact transitionLockedRung_unmarked h
  | expireIfNeeded now =>
    cases h
    unfold OrderProposal.expireIfNeeded
    split_ifs
    · exact unmarked_of_nonce (.inl rfl) rfl rfl rfl
    · split
      · exact unmarked_of_nonce (.inl rfl) rfl rfl rfl
      · exact moveAll_unmarked fun _ => unmarked_of_nonce (.inr rfl) rfl rfl rfl
  | expireRungIfNeeded rungIndex now =>
    obtain ⟨⟨next, expired⟩, hexpire, rfl⟩ := map_eq_ok_iff.mp (eq_ok_of_toOption h)
    exact (expireRungIfNeeded_rungs hexpire).unmarked
  | expireMutableRungsIfNeeded now =>
    exact (expireMutableRungsIfNeeded_rungs (eq_ok_of_toOption h)).unmarked
  | restoreRungAfterPreSendBlock rungIndex now expired =>
    obtain ⟨rung, -, h⟩ := bind_ok_iff.mp (eq_ok_of_toOption h)
    obtain ⟨restored, hrestored, h⟩ := bind_ok_iff.mp h
    have hfirst : group.Unmarked restored := by
      split_ifs at hrestored
      · exact transitionLockedRung_unmarked hrestored
      · cases hrestored
        exact unmarked_of_nonce (.inl rfl) rfl rfl rfl
    split_ifs at h
    · obtain ⟨⟨next, done⟩, hexpire, h⟩ := bind_ok_iff.mp h
      cases h
      exact hfirst.trans (expireRungIfNeeded_rungs hexpire).unmarked
    · cases h
      exact hfirst
  | voidProposal request now =>
    cases h
    exact voidProposal_unmarked
  | assertDispatchStillAuthorized now expectedNonce =>
    cases h
    unfold OrderProposal.assertDispatchStillAuthorized
    split
    · exact unmarked_of_nonce (.inr rfl) rfl rfl rfl
    · exact unmarked_of_nonce (.inl rfl) rfl rfl rfl
  | setApprovalNonce issued requireRedispatchable =>
    obtain ⟨-, h⟩ := refuse_bind_ok.mp (eq_ok_of_toOption h)
    obtain ⟨-, h⟩ := raiseIf_bind_ok.mp h
    obtain ⟨-, h⟩ := raiseIf_bind_ok.mp h
    cases h
    exact ⟨rfl, rfl, rfl, fun _ h => .inl h⟩
  | clearApprovalNonce expectedNonce =>
    obtain ⟨-, h⟩ := raiseIf_bind_ok.mp (eq_ok_of_toOption h)
    cases h
    exact unmarked_of_nonce (.inr rfl) rfl rfl rfl
  | restoreApprovalAfterWindowBlock issued expired =>
    obtain ⟨-, h⟩ := raiseIf_bind_ok.mp (eq_ok_of_toOption h)
    cases h
    cases expired with
    | false => exact ⟨rfl, rfl, rfl, fun _ h => .inl h⟩
    | true => exact unmarked_of_nonce (.inr rfl) rfl rfl rfl
  | acquireCommitLease now leaseSeconds =>
    change group.acquireCommitLease now leaseSeconds = some after at h
    unfold OrderProposal.acquireCommitLease at h
    split_ifs at h
    cases h
    exact unmarked_of_nonce (.inl rfl) rfl rfl rfl
  | recordChannelApproval channel actorSubject now =>
    obtain ⟨-, h⟩ := raiseIf_bind_ok.mp (eq_ok_of_toOption h)
    cases h
    exact unmarked_of_nonce (.inl rfl) rfl rfl rfl
  | recordLossGuardVerdict rungIndex error now =>
    cases h
    exact ⟨rfl, rfl, rfl, fun _ h => .inr h⟩
  | recordApproval | recordAutoApproval =>
    cases h
    exact unmarked_of_nonce (.inl rfl) rfl rfl rfl
  | recordApprovalDispatch messageId chatId stamp now =>
    cases h
    exact unmarked_of_nonce (.inr rfl) rfl rfl rfl
  | issueLossCutConfirmation firstNonce issued actorChannel actorSubject now ttlSeconds =>
    obtain ⟨-, h⟩ := raiseIf_bind_ok.mp (eq_ok_of_toOption h)
    obtain ⟨-, h⟩ := raiseIf_bind_ok.mp h
    obtain ⟨-, h⟩ := raiseIf_bind_ok.mp h
    obtain ⟨-, h⟩ := raiseIf_bind_ok.mp h
    cases h
    exact ⟨rfl, rfl, rfl, fun _ h => .inl h⟩
  | consumePublishedProposalCallback callback actorChannel actorSubject now =>
    obtain ⟨source, rfl⟩ := consumePublished_ok (eq_ok_of_toOption h)
    exact unmarked_of_nonce (.inl rfl) rfl rfl rfl
  | acceptEvidenceForRung rungIndex evidence now =>
    change (if evidence.Reportable then (group.acceptEvidenceForRung rungIndex evidence
      now).toOption else none) = some after at h
    split_ifs at h
    obtain ⟨rung, -, h⟩ := bind_ok_iff.mp (eq_ok_of_toOption h)
    split_ifs at h
    · obtain ⟨-, h⟩ := raiseIf_bind_ok.mp h
      cases h
      exact unmarked_of_nonce (.inl rfl) rfl rfl rfl
    · exact transitionLockedRung_unmarked h

end Rows

open OrderProposal

variable {s t : Store} {operation : Operation} {proposalId : ProposalId}

def Operation.on? (operation : Operation) (proposalId : ProposalId) : Option RowOperation :=
  match operation with
  | .onProposal key row => if key = proposalId then some row else none
  | _ => none

def Operation.created? : Operation → Option ProposalId
  | .createProposal creation _ => some creation.proposalId
  | _ => none

variable {creation : ProposalCreation} {now : Instant}

theorem step_created (h : step s (.createProposal creation now) = some t) :
    ∃ rootId deadline, creation.deadline now = .ok deadline ∧
      t.proposals.get? creation.proposalId = some (creation.group rootId deadline now) := by
  replace h := eq_ok_of_toOption h
  obtain ⟨-, h⟩ := raiseIf_bind_ok.mp h
  obtain ⟨-, h⟩ := refuse_bind_ok.mp h
  obtain ⟨deadline, hdeadline, h⟩ := bind_ok_iff.mp h
  obtain ⟨-, h⟩ := refuse_bind_ok.mp h
  obtain ⟨hfresh, h⟩ := raiseIf_bind_ok.mp h
  obtain ⟨-, h⟩ := raiseIf_bind_ok.mp h
  split at h
  · cases h
    exact ⟨_, deadline, hdeadline, by rw [get?_putProposal, if_pos rfl]⟩
  next older holder =>
    obtain ⟨superseded, hsuperseded, h⟩ := bind_ok_iff.mp h
    cases h
    have hother : creation.proposalId ≠ older := by
      rintro rfl
      exact hfresh (by rw [getProposal_ok hsuperseded]; rfl)
    exact ⟨_, deadline, hdeadline, by
      rw [get?_putProposal, if_neg hother, get?_putProposal, if_pos rfl]⟩

theorem createProposal_unmarked (h : s.createProposal creation now = .ok t)
    (hnot : creation.proposalId ≠ proposalId) :
    Option.Rel Unmarked (s.proposals.get? proposalId) (t.proposals.get? proposalId) := by
  have hsame (row : Option OrderProposal) : Option.Rel Unmarked row row := by
    cases row with
    | none => exact .none
    | some g => exact .some (unmarked_refl g)
  obtain ⟨-, h⟩ := raiseIf_bind_ok.mp h
  obtain ⟨-, h⟩ := refuse_bind_ok.mp h
  obtain ⟨deadline, -, h⟩ := bind_ok_iff.mp h
  obtain ⟨-, h⟩ := refuse_bind_ok.mp h
  obtain ⟨-, h⟩ := raiseIf_bind_ok.mp h
  obtain ⟨-, h⟩ := raiseIf_bind_ok.mp h
  split at h
  · cases h
    rw [get?_putProposal, if_neg (Ne.symm hnot)]
    exact hsame _
  · obtain ⟨superseded, hsuperseded, h⟩ := bind_ok_iff.mp h
    cases h
    rw [get?_putProposal, get?_putProposal, if_neg (Ne.symm hnot)]
    split_ifs with holder
    · rw [holder, getProposal_ok hsuperseded]
      exact .some (unmarked_of_nonce (.inl rfl) rfl rfl rfl)
    · exact hsame _

theorem sweepOne_unmarked (group : OrderProposal) (now : Instant) :
    group.Unmarked (group.sweepOne now).1 := by
  unfold sweepOne
  split_ifs
  · exact unmarked_refl group
  · exact unmarked_refl group
  · exact moveAll_unmarked fun _ => unmarked_of_nonce (.inr rfl) rfl rfl rfl
  · exact unmarked_refl group

theorem published_unmarked (group : OrderProposal) (publication : ApprovalPublication)
    (outcome : ApprovalDispatchState × Option String) (chatId stamp : Option String)
    (now : Instant) :
    group.Unmarked (Store.published group publication outcome chatId stamp now) := by
  unfold published
  dsimp only
  split_ifs
  · exact unmarked_of_nonce (.inl rfl) rfl rfl rfl
  · exact unmarked_of_nonce (.inr rfl) rfl rfl rfl

theorem step_marks (h : step s operation = some t) (hnot : operation.created? ≠ some proposalId) :
    Option.Rel (Marks ((operation.on? proposalId).bind (·.issued?))
      ((operation.on? proposalId).bind (·.verdict?)))
      (s.proposals.get? proposalId) (t.proposals.get? proposalId) := by
  cases operation with
  | createProposal creation now =>
    exact createProposal_unmarked (eq_ok_of_toOption h) fun hkey => hnot (congrArg some hkey)
  | onProposal key row =>
    obtain ⟨group, hgroup, h⟩ := Option.bind_eq_some_iff.mp h
    obtain ⟨after, hafter, h⟩ := Option.bind_eq_some_iff.mp h
    cases h
    unfold Operation.on?
    dsimp only
    split_ifs with hkey
    · subst hkey
      rw [hgroup, get?_putProposal, if_pos rfl]
      exact .some (RowOperation.run_marks hafter)
    · rw [get?_putProposal, if_neg (Ne.symm hkey)]
      exact rows_of_eq (s := s) unmarked_refl rfl proposalId
  | _ =>
    exact step_rows unmarked_refl (fun _ _ _ => .trans)
      (fun _ _ _ _ _ _ _ => acceptEvidence_unmarked) sweepOne_unmarked
      (fun _ _ => unmarked_of_nonce (.inl rfl) rfl rfl rfl) published_unmarked h
      (fun _ _ heq => by cases heq) (fun _ _ heq => by cases heq) proposalId

end KAssetTrader.Proposals
