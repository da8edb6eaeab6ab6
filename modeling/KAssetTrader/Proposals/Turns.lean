import KAssetTrader.Proposals.Moves

/-!
What an operation does to the rows of the table. It creates at most one proposal,
marks at most one as replaced by it, and on every other row it does what the
operations on one row do. What every row keeps therefore holds in every run.
-/

namespace KAssetTrader.Proposals

open Store Checked Transition

namespace Store

def Rows (R : OrderProposal → OrderProposal → Prop) (s t : Store) : Prop :=
  ∀ key, Option.Rel R (s.proposals.get? key) (t.proposals.get? key)

variable {R : OrderProposal → OrderProposal → Prop} {proposalId : ProposalId} {s t : Store}

section Rows

variable {u : Store} {group after : OrderProposal}

@[simp] theorem get?_putProposal (s : Store) (key : ProposalId) :
    (s.putProposal proposalId group).proposals.get? key =
      if key = proposalId then some group else s.proposals.get? key :=
  Dict.get?_set s.proposals

@[simp] theorem proposals_putAttempt (s : Store) (attemptId : AttemptId)
    (attempt : DispatchAttempt) : (s.putAttempt attemptId attempt).proposals = s.proposals := rfl

@[simp] theorem proposals_supersedePrevious (s : Store) (previous : Option AttemptId)
    (attemptId : AttemptId) : (s.supersedePrevious previous attemptId).proposals = s.proposals := by
  unfold supersedePrevious
  split
  · rfl
  · split <;> rfl

theorem rows_of_eq (hR : ∀ g, R g g) (h : t.proposals = s.proposals) : Rows R s t := by
  intro key
  rw [h]
  cases s.proposals.get? key with
  | none => exact .none
  | some g => exact .some (hR g)

theorem Rows.mono {R' : OrderProposal → OrderProposal → Prop} (h : Rows R s t)
    (hR : ∀ a b, R a b → R' a b) : Rows R' s t := by
  intro key
  have hrow := h key
  generalize s.proposals.get? key = a at hrow
  generalize t.proposals.get? key = b at hrow
  cases hrow with
  | none => exact .none
  | some hrow => exact .some (hR _ _ hrow)

theorem Rows.trans (hR : ∀ a b c, R a b → R b c → R a c) (h : Rows R s t) (h' : Rows R t u) :
    Rows R s u := by
  intro key
  have hfirst := h key
  have hsecond := h' key
  generalize s.proposals.get? key = a at hfirst
  generalize t.proposals.get? key = b at hfirst hsecond
  generalize u.proposals.get? key = c at hsecond
  cases hfirst with
  | none =>
    cases hsecond with
    | none => exact .none
  | some hfirst =>
    cases hsecond with
    | some hsecond => exact .some (hR _ _ _ hfirst hsecond)

theorem rows_putProposal (hR : ∀ g, R g g) (hsame : t.proposals = s.proposals)
    (hget : s.proposals.get? proposalId = some group) (h : R group after) :
    Rows R s (t.putProposal proposalId after) := by
  intro key
  rw [get?_putProposal, hsame]
  split
  next hkey =>
    subst hkey
    rw [hget]
    exact .some h
  · cases s.proposals.get? key with
    | none => exact .none
    | some g => exact .some (hR g)

theorem getProposal_ok (h : s.getProposal proposalId = .ok group) :
    s.proposals.get? proposalId = some group := by
  unfold getProposal at h
  split at h
  next found hfound =>
    cases h
    exact hfound
  · cases h

end Rows

def Kept (s : Store) : Prop :=
  ∀ proposalId group, s.proposals.get? proposalId = some group → group.Kept

section Operations

variable {now : Instant}

theorem sweepCandidates_rows (hrefl : ∀ g, R g g) (htrans : ∀ a b c, R a b → R b c → R a c)
    (hsweep : ∀ g, R g (g.sweepOne now).1) (s : Store) (candidates : List ProposalId) :
    Rows R s (s.sweepCandidates now candidates).1 := by
  induction candidates generalizing s with
  | nil => exact rows_of_eq hrefl rfl
  | cons candidate rest ih =>
    unfold sweepCandidates
    cases hget : s.proposals.get? candidate with
    | none => exact ih s
    | some group =>
      have hrow := rows_putProposal hrefl rfl hget (hsweep group)
      dsimp only
      split
      · exact hrow
      · exact hrow.trans htrans (ih _)

theorem sweepCandidates_retires (s : Store) (now : Instant) (candidates : List ProposalId) :
    Rows OrderProposal.Retires s (s.sweepCandidates now candidates).1 :=
  sweepCandidates_rows .refl (fun _ _ _ => .trans) (fun g => g.sweepOne_retires now) s candidates

theorem startApprovalDispatch_rows {start : DispatchStart} (hrefl : ∀ g, R g g)
    (hdispatch : ∀ (g : OrderProposal) dispatch, R g { g with dispatch })
    (h : s.startApprovalDispatch proposalId start now = .ok t) : Rows R s t := by
  obtain ⟨-, h⟩ := raiseIf_bind_ok.mp h
  obtain ⟨-, h⟩ := raiseIf_bind_ok.mp h
  obtain ⟨-, h⟩ := raiseIf_bind_ok.mp h
  obtain ⟨group, hgroup, h⟩ := bind_ok_iff.mp h
  obtain ⟨-, h⟩ := raiseIf_bind_ok.mp h
  obtain ⟨-, h⟩ := raiseIf_bind_ok.mp h
  obtain ⟨-, h⟩ := raiseIf_bind_ok.mp h
  obtain ⟨-, h⟩ := raiseIf_bind_ok.mp h
  cases h
  exact rows_putProposal hrefl (proposals_supersedePrevious s _ _) (getProposal_ok hgroup)
    (hdispatch group _)

theorem published_follows (group : OrderProposal) (publication : ApprovalPublication)
    (outcome : ApprovalDispatchState × Option String) (chatId stamp : Option String)
    (now : Instant) : group.Follows (published group publication outcome chatId stamp now) := by
  unfold published
  dsimp only
  split <;> exact .of_columns rfl rfl rfl rfl

variable {attemptId : AttemptId} {publication : ApprovalPublication} {state : ApprovalDispatchState}
  {batchId : BatchId}

theorem finishApprovalDispatch_rows {chatId stamp : Option String} (hrefl : ∀ g, R g g)
    (hpublished : ∀ g outcome, R g (published g publication outcome chatId stamp now))
    (h : s.finishApprovalDispatch proposalId attemptId publication chatId stamp now = .ok (t,
      state)) : Rows R s t := by
  obtain ⟨group, hgroup, h⟩ := bind_ok_iff.mp h
  obtain ⟨attempt, -, h⟩ := bind_ok_iff.mp h
  obtain ⟨-, h⟩ := raiseIf_bind_ok.mp h
  dsimp only at h
  split at h
  · cases h
    exact rows_putProposal hrefl (proposals_putAttempt s _ _) (getProposal_ok hgroup)
      (hpublished group _)
  · cases h
    exact rows_of_eq hrefl rfl

theorem finishWebApprovalDispatch_rows (hrefl : ∀ g, R g g)
    (hdispatch : ∀ (g : OrderProposal) dispatch, R g { g with dispatch })
    (h : s.finishWebApprovalDispatch proposalId attemptId now = .ok t) : Rows R s t := by
  obtain ⟨group, hgroup, h⟩ := bind_ok_iff.mp h
  obtain ⟨attempt, -, h⟩ := bind_ok_iff.mp h
  obtain ⟨-, h⟩ := raiseIf_bind_ok.mp h
  cases h
  exact rows_putProposal hrefl (proposals_putAttempt s _ _) (getProposal_ok hgroup)
    (hdispatch group _)

theorem registerApprovalBatchMember_proposals {draws : BatchDraws} {chatId : String}
    {approvalMessageId windowSeconds ttlSeconds : ℤ} {threshold : ℕ}
    {binding : Option (DispatchBinding BatchDigest)}
    (h : s.registerApprovalBatchMember proposalId draws chatId approvalMessageId now
      windowSeconds ttlSeconds threshold = .ok (t, binding)) : t.proposals = s.proposals := by
  obtain ⟨-, h⟩ := raiseIf_bind_ok.mp h
  obtain ⟨group, -, h⟩ := bind_ok_iff.mp h
  split at h
  · cases h
    rfl
  · split at h
    · cases h
      rfl
    · obtain ⟨-, h⟩ := raiseIf_bind_ok.mp h
      dsimp only at h
      split at h
      · cases h
        rfl
      · split at h
        · cases h
          rfl
        · cases h
          rfl

theorem consumeApprovalBatchNonce_proposals {callback : CallbackEnvelope BatchDigest}
    {chatId telegramUserId : String} {expectedMembers : Option (List (ProposalId × String))}
    {members : List BatchMemberSnapshot}
    (h : s.consumeApprovalBatchNonce batchId callback chatId telegramUserId now expectedMembers =
      .ok (t, members)) : t.proposals = s.proposals := by
  obtain ⟨batch, -, h⟩ := bind_ok_iff.mp h
  obtain ⟨_, -, h⟩ := bind_ok_iff.mp h
  obtain ⟨-, h⟩ := raiseIf_bind_ok.mp h
  obtain ⟨snapshots, -, h⟩ := bind_ok_iff.mp h
  obtain ⟨-, h⟩ := raiseIf_bind_ok.mp h
  obtain ⟨-, h⟩ := raiseIf_bind_ok.mp h
  cases h
  rfl

theorem recordApprovalBatchPayload_proposals {payloadChars : ℤ}
    (h : s.recordApprovalBatchPayload batchId attemptId payloadChars = .ok t) :
    t.proposals = s.proposals := by
  obtain ⟨batch, -, h⟩ := bind_ok_iff.mp h
  obtain ⟨-, h⟩ := raiseIf_bind_ok.mp h
  cases h
  rfl

theorem finishApprovalBatchDispatch_proposals
    (h : s.finishApprovalBatchDispatch batchId attemptId publication now = .ok (t, state)) :
    t.proposals = s.proposals := by
  obtain ⟨batch, -, h⟩ := bind_ok_iff.mp h
  dsimp only at h
  split at h
  · cases h
    rfl
  · cases h
    rfl

theorem releaseApprovalBatchSummaryClaim_proposals
    (h : s.releaseApprovalBatchSummaryClaim batchId = .ok t) : t.proposals = s.proposals := by
  obtain ⟨batch, -, h⟩ := bind_ok_iff.mp h
  cases h
  rfl

theorem recordFillEvidence_rows {evidence : FillEvidence} (hrefl : ∀ g, R g g)
    (haccept : ∀ proposalId group rungIndex after, s.proposals.get? proposalId = some group →
      group.acceptEvidence rungIndex evidence now = .ok after → R group after)
    (h : s.recordFillEvidence evidence now = some t) : Rows R s t := by
  unfold recordFillEvidence at h
  split at h
  · cases h
  · split at h
    · cases h
      exact rows_of_eq hrefl rfl
    next proposalId rung hfound =>
      obtain ⟨group, hgroup, h⟩ := Option.bind_eq_some_iff.mp h
      obtain ⟨after, hafter, h⟩ := Option.bind_eq_some_iff.mp h
      cases h
      exact rows_putProposal hrefl rfl hgroup
        (haccept _ _ _ _ hgroup (eq_ok_of_toOption hafter))

end Operations

end Store

def Operation.Replaces (operation : Operation) (proposalId : ProposalId) : Prop :=
  ∃ creation now, operation = .createProposal creation now ∧
    creation.supersedesProposalId = some proposalId

inductive Turn (s : Store) (operation : Operation) (proposalId : ProposalId) :
    Option OrderProposal → Option OrderProposal → Prop
  | absent : Turn s operation proposalId none none
  | created (creation : ProposalCreation) (rootId : ProposalId) (deadline now : Instant) :
      operation = .createProposal creation now → proposalId = creation.proposalId →
      creation.rungs ≠ [] → (creation.rungs.map (·.rungIndex)).Nodup →
      (creation.supersedesProposalId = none ∧ rootId = proposalId ∨
        ∃ older superseded, creation.supersedesProposalId = some older ∧
          s.proposals.get? older = some superseded ∧ superseded.terms.rootProposalId = rootId) →
      Turn s operation proposalId none (some (creation.group rootId deadline now))
  | followed {group after : OrderProposal} : ¬ operation.Replaces proposalId →
      group.Follows after → Turn s operation proposalId (some group) (some after)
  | superseded (creation : ProposalCreation) (now : Instant) {group : OrderProposal} :
      operation = .createProposal creation now →
      creation.supersedesProposalId = some proposalId →
      Turn s operation proposalId (some group) (some (group.supersede creation.proposalId now))

variable {s t : Store} {operation : Operation}

theorem Turn.of_rows (h : Store.Rows OrderProposal.Follows s t) (proposalId : ProposalId)
    (hnot : ¬ operation.Replaces proposalId) :
    Turn s operation proposalId (s.proposals.get? proposalId) (t.proposals.get? proposalId) := by
  have hrow := h proposalId
  generalize s.proposals.get? proposalId = before at hrow
  generalize t.proposals.get? proposalId = after at hrow
  cases hrow with
  | none => exact .absent
  | some hrow => exact .followed hnot hrow

theorem turn_refl {proposalId : ProposalId} (hnot : ¬ operation.Replaces proposalId) :
    Turn s operation proposalId (s.proposals.get? proposalId) (s.proposals.get? proposalId) :=
  Turn.of_rows (rows_of_eq .refl rfl) proposalId hnot

theorem createProposal_turn {creation : ProposalCreation} {now : Instant}
    (h : s.createProposal creation now = .ok t) (proposalId : ProposalId) :
    Turn s (.createProposal creation now) proposalId (s.proposals.get? proposalId)
      (t.proposals.get? proposalId) := by
  obtain ⟨hrungs, h⟩ := raiseIf_bind_ok.mp h
  obtain ⟨-, h⟩ := refuse_bind_ok.mp h
  obtain ⟨deadline, -, h⟩ := bind_ok_iff.mp h
  obtain ⟨-, h⟩ := refuse_bind_ok.mp h
  obtain ⟨hfresh, h⟩ := raiseIf_bind_ok.mp h
  obtain ⟨hindices, h⟩ := raiseIf_bind_ok.mp h
  rw [Bool.not_eq_true, Option.isSome_eq_false_iff, Option.isNone_iff_eq_none] at hfresh
  split at h
  next hnone =>
    cases h
    rw [get?_putProposal]
    split
    next hkey =>
      subst hkey
      rw [hfresh]
      exact .created creation _ deadline now rfl rfl hrungs (not_not.mp hindices)
        (.inl ⟨hnone, rfl⟩)
    · refine turn_refl ?_
      rintro ⟨_, _, heq, hreplaces⟩
      cases heq
      rw [hnone] at hreplaces
      cases hreplaces
  next older holder =>
    obtain ⟨superseded, hsuperseded, h⟩ := bind_ok_iff.mp h
    cases h
    have hget := getProposal_ok hsuperseded
    have hother : older ≠ creation.proposalId := by
      rintro rfl
      rw [hfresh] at hget
      cases hget
    simp only [get?_putProposal]
    split
    next hkey =>
      subst hkey
      rw [hget]
      exact .superseded creation now rfl holder
    next hnot =>
      split
      next hkey =>
        subst hkey
        rw [hfresh]
        exact .created creation _ deadline now rfl rfl hrungs (not_not.mp hindices)
          (.inr ⟨older, superseded, holder, hget, rfl⟩)
      · refine turn_refl ?_
        rintro ⟨_, _, heq, hreplaces⟩
        cases heq
        exact hnot (Option.some.inj (hreplaces.symm.trans holder))

theorem step_rows {R : OrderProposal → OrderProposal → Prop} (hrefl : ∀ g, R g g)
    (htrans : ∀ a b c, R a b → R b c → R a c)
    (haccept : ∀ key group rungIndex evidence now after, s.proposals.get? key = some group →
      group.acceptEvidence rungIndex evidence now = .ok after → R group after)
    (hsweep : ∀ g now, R g (g.sweepOne now).1)
    (hdispatch : ∀ (g : OrderProposal) dispatch, R g { g with dispatch })
    (hpublished : ∀ g publication outcome chatId stamp now,
      R g (Store.published g publication outcome chatId stamp now))
    (h : step s operation = some t)
    (hcreate : ∀ creation now, operation ≠ .createProposal creation now)
    (hrow : ∀ key row, operation ≠ .onProposal key row) : Store.Rows R s t := by
  have hmap {α : Type} {x : Except ProposalError (Store × α)}
      (hx : (x.map Prod.fst).toOption = some t) : ∃ a, x = .ok (t, a) := by
    obtain ⟨⟨_, a⟩, hresult, rfl⟩ := map_eq_ok_iff.mp (eq_ok_of_toOption hx)
    exact ⟨a, hresult⟩
  cases operation with
  | createProposal creation now => exact absurd rfl (hcreate creation now)
  | onProposal key row => exact absurd rfl (hrow key row)
  | recordFillEvidence evidence now =>
    exact recordFillEvidence_rows hrefl (fun _ _ _ _ => haccept _ _ _ _ _ _) h
  | sweepExpired now =>
    cases h
    exact sweepCandidates_rows hrefl htrans (hsweep · now) s (s.expiryCandidates now)
  | startApprovalDispatch =>
    exact startApprovalDispatch_rows hrefl hdispatch (eq_ok_of_toOption h)
  | finishApprovalDispatch =>
    obtain ⟨state, hfinish⟩ := hmap h
    exact finishApprovalDispatch_rows hrefl (fun g outcome => hpublished g _ outcome _ _ _)
      hfinish
  | finishWebApprovalDispatch =>
    exact finishWebApprovalDispatch_rows hrefl hdispatch (eq_ok_of_toOption h)
  | registerApprovalBatchMember =>
    obtain ⟨binding, hregister⟩ := hmap h
    exact rows_of_eq hrefl (registerApprovalBatchMember_proposals hregister)
  | consumeApprovalBatchNonce =>
    obtain ⟨members, hconsume⟩ := hmap h
    exact rows_of_eq hrefl (consumeApprovalBatchNonce_proposals hconsume)
  | recordApprovalBatchPayload =>
    exact rows_of_eq hrefl
      (recordApprovalBatchPayload_proposals (eq_ok_of_toOption h))
  | finishApprovalBatchDispatch =>
    obtain ⟨state, hfinish⟩ := hmap h
    exact rows_of_eq hrefl (finishApprovalBatchDispatch_proposals hfinish)
  | releaseApprovalBatchSummaryClaim =>
    exact rows_of_eq hrefl
      (releaseApprovalBatchSummaryClaim_proposals (eq_ok_of_toOption h))

theorem step_turn (hkept : s.Kept) (h : step s operation = some t) (proposalId : ProposalId) :
    Turn s operation proposalId (s.proposals.get? proposalId) (t.proposals.get? proposalId) := by
  have hother {operation : Operation} (hnot : ∀ creation now,
      operation ≠ .createProposal creation now) : ¬ operation.Replaces proposalId := by
    rintro ⟨creation, now, heq, -⟩
    exact hnot creation now heq
  cases operation with
  | createProposal creation now => exact createProposal_turn (eq_ok_of_toOption h) proposalId
  | onProposal key row =>
    obtain ⟨group, hgroup, h⟩ := Option.bind_eq_some_iff.mp h
    obtain ⟨after, hafter, h⟩ := Option.bind_eq_some_iff.mp h
    cases h
    exact .of_rows (rows_putProposal .refl rfl hgroup
      (RowOperation.run_follows (hkept _ _ hgroup) hafter)) proposalId
      (hother fun _ _ heq => by cases heq)
  | _ =>
    exact .of_rows (step_rows .refl (fun _ _ _ => .trans) (fun _ _ _ _ _ _ hgroup =>
      OrderProposal.acceptEvidence_follows (hkept _ _ hgroup)) (fun g now =>
      (g.sweepOne_retires now).follows) (fun _ _ => .of_columns rfl rfl rfl rfl)
      published_follows h (fun _ _ heq => by cases heq) (fun _ _ heq => by cases heq))
      proposalId (hother fun _ _ heq => by cases heq)

theorem recompute_of_pending {states : List RungState} (hne : states ≠ [])
    (h : ∀ state ∈ states, state = .pendingApproval) :
    recomputeGroupState states = .proposed := by
  obtain ⟨n, rfl⟩ : ∃ n, states = List.replicate n .pendingApproval :=
    ⟨states.length, List.eq_replicate_iff.mpr ⟨rfl, h⟩⟩
  have hpos : n ≠ 0 := by
    rintro rfl
    exact hne rfl
  unfold recomputeGroupState
  simp [hpos]

theorem ProposalCreation.group_kept {creation : ProposalCreation} (hrungs : creation.rungs ≠ [])
    (hindices : (creation.rungs.map (·.rungIndex)).Nodup) (rootId : ProposalId)
    (deadline now : Instant) : (creation.group rootId deadline now).Kept where
  indices := by
    unfold ProposalCreation.group
    rw [List.map_map]
    exact hindices
  tracked rung hmem := by
    obtain ⟨input, -, rfl⟩ := List.mem_map.mp hmem
    exact List.IsChain.singleton _
  lifecycle := by
    refine .inl (recompute_of_pending ?_ ?_).symm
    · unfold ProposalCreation.group
      simpa using hrungs
    · intro state hstate
      obtain ⟨rung, hrung, rfl⟩ := List.mem_map.mp hstate
      obtain ⟨input, -, rfl⟩ := List.mem_map.mp hrung
      rfl

theorem supersede_continues (group : OrderProposal) (newer : ProposalId) (now : Instant) :
    group.Continues (group.supersede newer now) where
  terms := rfl
  rungs := by
    refine OrderProposal.forall₂_moves_map fun rung _ => ?_
    split
    next hconfirmable =>
      exact OrderProposalRung.move_setState now (RungState.allows_superseded hconfirmable)
    · exact .stay rfl rfl rfl
  superseded _ := Option.some_ne_none newer
  lifecycle := .inr (.inl ⟨rfl, Option.some_ne_none newer⟩)

variable {proposalId : ProposalId} {group : OrderProposal}

theorem step_continues (hkept : s.Kept) (h : step s operation = some t)
    (hget : s.proposals.get? proposalId = some group) :
    ∃ after, t.proposals.get? proposalId = some after ∧ group.Continues after := by
  have hturn := step_turn hkept h proposalId
  rw [hget] at hturn
  generalize t.proposals.get? proposalId = row at hturn
  cases hturn with
  | followed _ hfollows => exact ⟨_, rfl, hfollows.continues⟩
  | superseded creation now => exact ⟨_, rfl, supersede_continues group _ now⟩

theorem step_kept (hkept : s.Kept) (h : step s operation = some t) : t.Kept := by
  intro proposalId after hafter
  have hturn := step_turn hkept h proposalId
  rw [hafter] at hturn
  cases hget : s.proposals.get? proposalId with
  | none =>
    rw [hget] at hturn
    cases hturn with
    | created creation rootId deadline now _ _ hrungs hindices =>
      exact creation.group_kept hrungs hindices rootId deadline now
  | some group =>
    obtain ⟨_, hsame, hcontinues⟩ := step_continues hkept h hget
    cases hafter.symm.trans hsame
    exact hcontinues.kept (hkept _ _ hget)

theorem empty_kept {s : Store} (h : Empty s) : s.Kept := by
  obtain rfl := h
  intro proposalId group hget
  cases hget

/-- Every reachable store keeps its proposals, whatever the operations may be held to. -/
theorem kept_of_reachable {ok : Store → Operation → Prop}
    (h : ReachableVia Empty step ok s) : s.Kept :=
  invariant (fun _ => empty_kept) (fun _ _ _ hkept _ => step_kept hkept) h

theorem run_continues (hkept : s.Kept) {operations : List Operation}
    (hrun : run step s operations = some t) (hget : s.proposals.get? proposalId = some group) :
    ∃ after, t.proposals.get? proposalId = some after ∧ group.Continues after := by
  induction operations generalizing s group with
  | nil =>
    cases hrun
    exact ⟨group, hget, .refl group⟩
  | cons operation rest ih =>
    obtain ⟨middle, hstep, hrest⟩ := Option.bind_eq_some_iff.mp hrun
    obtain ⟨next, hnext, hcontinues⟩ := step_continues hkept hstep hget
    obtain ⟨after, hafter, hlater⟩ := ih (step_kept hkept hstep) hrest hnext
    exact ⟨after, hafter, hcontinues.trans hlater⟩

end KAssetTrader.Proposals
