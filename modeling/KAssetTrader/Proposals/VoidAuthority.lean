import KAssetTrader.Proposals.Marks

/-!
The void authority that rests on the loss guard. The server is to be the only one that records a
verdict, so that what a caller supplies as `source_asof` decides nothing. The creation of a
proposal keeps a verdict that the caller has put there; without one, two runs that differ in the
sources alone decide alike.
-/

namespace KAssetTrader.Proposals

open Checked Transition OrderProposal

variable {s t s' t' : Store} {operation operation' : Operation}
  {operations operations' : List Operation} {proposalId : ProposalId}

inductive SameButSource : Operation → Operation → Prop
  | same (operation : Operation) : SameButSource operation operation
  | source (creation : ProposalCreation) (sourceAsof : SourceAsof) (now : Instant) :
      SameButSource (.createProposal creation now)
        (.createProposal { creation with sourceAsof } now)

namespace Operation

/-- The caller supplies no verdict that passes for one of the server. -/
def Unforged : Operation → Prop
  | .createProposal creation _ => creation.sourceAsof.lossGuardViolated = false
  | _ => True

/-- `record_loss_guard_verdict` for the proposal. -/
def RecordsVerdict (operation : Operation) (proposalId : ProposalId) : Prop :=
  ∃ rungIndex error now,
    operation = .onProposal proposalId (.recordLossGuardVerdict rungIndex error now)

end Operation

/-- What `void_proposal` passes of a row to `authorize_void`: the creator, the deadline and the
violation. -/
def OrderProposal.voidEvidence (group : OrderProposal) :
    Option String × Option Instant × Option LossGuardVerdict :=
  (clean group.sourceAsof.creatorAgentId, group.terms.validUntil,
    group.sourceAsof.lossGuardVerdict.filter fun _ => group.sourceAsof.lossGuardViolated)

/-- The loss guard is a reason only for the proposals for which the run has recorded a verdict. -/
def Confirmed (operations : List Operation) (s : Store) : Prop :=
  ∀ proposalId group, s.proposals.get? proposalId = some group → ∀ requester now nonce,
    authorizeVoid group requester now = some .serverLossGuardInvalid ∨
      group.dispatchRefusal now nonce = some "proposal_loss_guard_invalid" →
    ∃ operation ∈ operations, operation.RecordsVerdict proposalId

def SameDecisions (s s' : Store) : Prop :=
  ∀ proposalId group group', s.proposals.get? proposalId = some group →
    s'.proposals.get? proposalId = some group' → group.voidEvidence = group'.voidEvidence ∧
      ∀ requester now, authorizeVoid group requester now = authorizeVoid group' requester now

theorem append_ne {head tail text : String} (h : ¬ head.toList <+: text.toList) :
    head ++ tail ≠ text := by
  rintro rfl
  exact h ⟨tail.toList, String.toList_append.symm⟩

theorem BlockReason.text_ne (reason : BlockReason) :
    reason.text ≠ "proposal_loss_guard_invalid" := by
  cases reason with
  | supersededBy newer => exact append_ne (by decide +kernel)
  | supersededByUnknown => decide
  | terminal state => exact append_ne (by decide +kernel)

theorem orElse_eq_some {α : Type} {x y : Option α} {v : α} (h : (x <|> y) = some v) :
    x = some v ∨ y = some v := by
  cases x with
  | none => exact .inr h
  | some _ => exact .inl h

theorem violated_of_reason {group : OrderProposal} {requester nonce : Option String}
    {now : Instant} (h : authorizeVoid group requester now = some .serverLossGuardInvalid ∨
      group.dispatchRefusal now nonce = some "proposal_loss_guard_invalid") :
    group.sourceAsof.lossGuardViolated = true := by
  by_contra hnot
  obtain h | h := h
  · unfold authorizeVoid at h
    dsimp only at h
    split_ifs at h <;> cases h
  · obtain h | h := orElse_eq_some h
    · obtain ⟨reason, -, htext⟩ := Option.map_eq_some_iff.mp h
      exact reason.text_ne htext
    obtain h | h := orElse_eq_some h
    · split_ifs at h
      exact absurd (Option.some.inj h) (by decide)
    obtain h | h := orElse_eq_some h
    · obtain ⟨block, hblock, htext⟩ := Option.map_eq_some_iff.mp h
      obtain ⟨-, rfl⟩ | ⟨-, rfl⟩ := validUntilBlock_eq_some hblock
      · exact absurd htext (by decide)
      · exact absurd htext (by decide)
    rw [if_neg hnot] at h
    split_ifs at h
    · exact absurd (Option.some.inj h) (by decide)
    · cases h

theorem verdict_recorded {row : RowOperation} {verdict : LossGuardVerdict}
    (hon : operation.on? proposalId = some row) (hverdict : row.verdict? = some verdict) :
    operation.RecordsVerdict proposalId := by
  unfold Operation.on? at hon
  split at hon
  · split_ifs at hon with hkey
    cases hon
    subst hkey
    unfold RowOperation.verdict? at hverdict
    split at hverdict
    · exact ⟨_, _, _, rfl⟩
    · cases hverdict
  · cases hon

theorem step_violated (h : step s operation = some t) (hunforged : operation.Unforged)
    {after : OrderProposal} (hafter : t.proposals.get? proposalId = some after)
    (hviolated : after.sourceAsof.lossGuardViolated = true) :
    operation.RecordsVerdict proposalId ∨ ∃ before, s.proposals.get? proposalId = some before ∧
      before.sourceAsof.lossGuardViolated = true := by
  by_cases hcreated : operation.created? = some proposalId
  · cases operation with
    | createProposal creation now =>
      cases hcreated
      obtain ⟨rootId, deadline, -, hnew⟩ := step_created h
      cases hafter.symm.trans hnew
      exact absurd hviolated (Bool.eq_false_iff.mp hunforged)
    | _ => cases hcreated
  · have hrow := step_marks h hcreated
    rw [hafter] at hrow
    generalize hbefore : s.proposals.get? proposalId = before at hrow
    cases hrow with
    | @some before _ hmarks =>
      cases hverdict : (operation.on? proposalId).bind (·.verdict?) with
      | some verdict =>
        obtain ⟨row, hon, hverdict⟩ := Option.bind_eq_some_iff.mp hverdict
        exact .inl (verdict_recorded hon hverdict)
      | none =>
        have hsame := hmarks.verdict
        rw [hverdict, Option.none_or] at hsame
        refine .inr ⟨before, rfl, ?_⟩
        unfold SourceAsof.lossGuardViolated at hviolated ⊢
        rwa [← hsame]

theorem run_confirmed (hrun : run step s operations = some t)
    (hunforged : ∀ operation ∈ operations, operation.Unforged) {after : OrderProposal}
    (hafter : t.proposals.get? proposalId = some after)
    (hviolated : after.sourceAsof.lossGuardViolated = true) :
    (∃ operation ∈ operations, operation.RecordsVerdict proposalId) ∨
      ∃ before, s.proposals.get? proposalId = some before ∧
        before.sourceAsof.lossGuardViolated = true := by
  induction operations generalizing s with
  | nil =>
    cases hrun
    exact .inr ⟨after, hafter, hviolated⟩
  | cons operation rest ih =>
    obtain ⟨middle, hstep, hrest⟩ := Option.bind_eq_some_iff.mp hrun
    obtain ⟨recorded, hmem, hrecords⟩ | ⟨before, hbefore, hold⟩ :=
      ih hrest fun later hlater => hunforged later (List.mem_cons_of_mem _ hlater)
    · exact .inl ⟨recorded, List.mem_cons_of_mem _ hmem, hrecords⟩
    · exact (step_violated hstep (hunforged _ List.mem_cons_self) hbefore hold).imp_left
        fun hrecords => ⟨operation, List.mem_cons_self, hrecords⟩

/-- The rows of two stores have the same evidence for a void. -/
def Agree (s s' : Store) : Prop :=
  ∀ proposalId group group', s.proposals.get? proposalId = some group →
    s'.proposals.get? proposalId = some group' → group.voidEvidence = group'.voidEvidence

theorem voidEvidence_eq {before after before' after' : OrderProposal} {issued : Option String}
    {verdict : Option LossGuardVerdict} (h : before.Marks issued verdict after)
    (h' : before'.Marks issued verdict after')
    (hsame : before.voidEvidence = before'.voidEvidence) :
    after.voidEvidence = after'.voidEvidence := by
  obtain ⟨hcreator, hvalid, hviolation⟩ : _ ∧ _ ∧ _ := by
    simpa only [voidEvidence, Prod.mk.injEq] using hsame
  simp only [voidEvidence, SourceAsof.lossGuardViolated, Prod.mk.injEq, h.creator, h'.creator,
    h.validUntil, h'.validUntil, h.verdict, h'.verdict]
  refine ⟨hcreator, hvalid, ?_⟩
  cases verdict with
  | some verdict => rfl
  | none => exact hviolation

theorem authorizeVoid_congr {group group' : OrderProposal}
    (h : group.voidEvidence = group'.voidEvidence) (requester : Option String) (now : Instant) :
    authorizeVoid group requester now = authorizeVoid group' requester now := by
  obtain ⟨hcreator, hvalid, hviolation⟩ : _ ∧ _ ∧ _ := by
    simpa only [voidEvidence, Prod.mk.injEq] using h
  have hsome (source : SourceAsof) : (source.lossGuardVerdict.filter
      fun _ => source.lossGuardViolated).isSome = source.lossGuardViolated := by
    rw [Option.isSome_filter]
    unfold SourceAsof.lossGuardViolated
    cases source.lossGuardVerdict <;> rfl
  have hviolated : group.sourceAsof.lossGuardViolated = group'.sourceAsof.lossGuardViolated := by
    rw [← hsome, hviolation, hsome]
  unfold authorizeVoid
  rw [hcreator, hvalid, hviolated]

theorem step_agree (hsame : SameButSource operation operation') (hunforged : operation.Unforged)
    (hunforged' : operation'.Unforged) (h : step s operation = some t)
    (h' : step s' operation' = some t') (hagree : Agree s s') : Agree t t' := by
  intro proposalId after after' hafter hafter'
  by_cases hcreated : operation.created? = some proposalId
  · -- Both rows are new: without a verdict, their evidence is what the creation itself says.
    have hnew {u v : Store} {creation : ProposalCreation} {now : Instant} {group : OrderProposal}
        (hunforged : creation.sourceAsof.lossGuardViolated = false)
        (h : step u (.createProposal creation now) = some v)
        (hgroup : v.proposals.get? creation.proposalId = some group) :
        ∃ deadline, creation.deadline now = .ok deadline ∧
          group.voidEvidence = (clean (clean creation.creatorAgentId), some deadline, none) := by
      obtain ⟨rootId, deadline, hdeadline, hget⟩ := step_created h
      cases hgroup.symm.trans hget
      refine ⟨deadline, hdeadline, Prod.ext rfl (Prod.ext rfl ?_)⟩
      exact Option.filter_eq_none_iff.mpr fun _ _ => Bool.eq_false_iff.mp hunforged
    cases operation with
    | createProposal creation now =>
      cases hcreated
      obtain ⟨deadline, hdeadline, hevidence⟩ := hnew hunforged h hafter
      cases hsame with
      | same =>
        obtain ⟨deadline', hdeadline', hevidence'⟩ := hnew hunforged' h' hafter'
        cases hdeadline.symm.trans hdeadline'
        rw [hevidence, hevidence']
      | source _ source =>
        obtain ⟨deadline', hdeadline', hevidence'⟩ := hnew hunforged' h' hafter'
        cases hdeadline.symm.trans hdeadline'
        rw [hevidence, hevidence']
    | _ => cases hcreated
  · have hcreated' : operation'.created? ≠ some proposalId := by
      cases hsame with
      | same => exact hcreated
      | source => exact hcreated
    have hon : operation'.on? proposalId = operation.on? proposalId := by
      cases hsame with
      | same => rfl
      | source => rfl
    have hrow := step_marks h hcreated
    have hrow' := step_marks h' hcreated'
    rw [hafter] at hrow
    rw [hafter', hon] at hrow'
    generalize hbefore : s.proposals.get? proposalId = before at hrow
    generalize hbefore' : s'.proposals.get? proposalId = before' at hrow'
    cases hrow with
    | some hmarks =>
      cases hrow' with
      | some hmarks' =>
        exact voidEvidence_eq hmarks hmarks' (hagree proposalId _ _ hbefore hbefore')

theorem run_agree (hsame : List.Forall₂ SameButSource operations operations')
    (hunforged : ∀ operation ∈ operations, operation.Unforged)
    (hunforged' : ∀ operation ∈ operations', operation.Unforged)
    (hrun : run step s operations = some t) (hrun' : run step s' operations' = some t')
    (hagree : Agree s s') : Agree t t' := by
  induction hsame generalizing s s' with
  | nil =>
    cases hrun
    cases hrun'
    exact hagree
  | cons hfirst _ ih =>
    obtain ⟨middle, hstep, hrest⟩ := Option.bind_eq_some_iff.mp hrun
    obtain ⟨middle', hstep', hrest'⟩ := Option.bind_eq_some_iff.mp hrun'
    refine ih (fun later hlater => hunforged later (List.mem_cons_of_mem _ hlater))
      (fun later hlater => hunforged' later (List.mem_cons_of_mem _ hlater)) hrest hrest' ?_
    exact step_agree hfirst (hunforged _ List.mem_cons_self) (hunforged' _ List.mem_cons_self)
      hstep hstep' hagree

/-- Where no caller has supplied a verdict of the server, the loss guard is a reason only with a
verdict that the run has recorded, and runs that differ in the sources alone decide alike. -/
theorem void_authority_confirmed (hsame : List.Forall₂ SameButSource operations operations')
    (hunforged : ∀ operation ∈ operations, operation.Unforged)
    (hunforged' : ∀ operation ∈ operations', operation.Unforged)
    (hrun : run step {} operations = some s) (hrun' : run step {} operations' = some s') :
    Confirmed operations s ∧ SameDecisions s s' := by
  constructor
  · intro proposalId group hgroup requester now nonce hreason
    obtain hrecorded | ⟨before, hbefore, -⟩ :=
      run_confirmed hrun hunforged hgroup (violated_of_reason hreason)
    · exact hrecorded
    · cases hbefore
  · intro proposalId group group' hgroup hgroup'
    have hevidence := run_agree hsame hunforged hunforged' hrun hrun'
      (fun _ _ _ hnone => by cases hnone) proposalId group group' hgroup hgroup'
    exact ⟨hevidence, authorizeVoid_congr hevidence⟩

def buyFrom (sourceAsof : SourceAsof) : Operation :=
  match buyOne "a" none with
  | .createProposal creation now => .createProposal { creation with sourceAsof } now
  | operation => operation

/-- A violation that the server then records, whatever message identifiers the callers supply. -/
def recordedRun (messageId : ℤ) : List Operation :=
  [buyFrom { approvalMessage := some ⟨some messageId, none, 0⟩ },
    .onProposal "a" (.recordLossGuardVerdict 0 (some "loss_sell_blocked") (seconds 1700000001))]

/-- The same verdict recorded twice, with evidence that differs. -/
theorem recorded_runs_agree : ∃ s s', run step {} (recordedRun 1) = some s ∧
    run step {} (recordedRun 2) = some s' ∧ Confirmed (recordedRun 1) s ∧ SameDecisions s s' := by
  have hunforged (messageId : ℤ) : ∀ operation ∈ recordedRun messageId, operation.Unforged :=
    List.forall_mem_cons.mpr ⟨rfl, List.forall_mem_singleton.mpr trivial⟩
  obtain ⟨s, hrun⟩ := Option.isSome_iff_exists.mp
    (show (run step {} (recordedRun 1)).isSome = true by decide +kernel)
  obtain ⟨s', hrun'⟩ := Option.isSome_iff_exists.mp
    (show (run step {} (recordedRun 2)).isSome = true by decide +kernel)
  exact ⟨s, s', hrun, hrun', void_authority_confirmed
    (.cons (.source _ _ _) (.cons (.same _) .nil)) (hunforged 1) (hunforged 2) hrun hrun'⟩

/-- A caller supplies the verdict itself: a stranger may void the proposal, which nobody has
found to violate the loss guard. -/
theorem forged_verdict_authorizes :
    ∃ operations operations' s s', List.Forall₂ SameButSource operations operations' ∧
      run step {} operations = some s ∧ run step {} operations' = some s' ∧
      ¬ Confirmed operations' s' ∧ ¬ SameDecisions s s' := by
  let forged : SourceAsof := { lossGuardVerdict := some ⟨true, "server_revalidation", 0, 0, ""⟩ }
  let decides (source : SourceAsof) (authority : Option VoidAuthority) : Prop :=
    ((run step {} [buyFrom source]).any fun s => (s.proposals.get? "a").any fun group =>
      decide (authorizeVoid group (some "stranger") 0 = authority)) = true
  have hplain : decides {} none := by decide +kernel
  have hforged : decides forged (some .serverLossGuardInvalid) := by decide +kernel
  simp only [decides, Option.any_eq_true, decide_eq_true_eq] at hplain hforged
  obtain ⟨s, hrun, group, hget, hnone⟩ := hplain
  obtain ⟨s', hrun', group', hget', hsome⟩ := hforged
  refine ⟨_, _, s, s', .cons (.source _ _ _) .nil, hrun, hrun', fun hconfirmed => ?_,
    fun hsame => ?_⟩
  · obtain ⟨operation, hmem, _, _, _, heq⟩ :=
      hconfirmed "a" group' hget' (some "stranger") 0 none (.inl hsome)
    cases List.mem_singleton.mp hmem
    cases heq
  · have hdecision := (hsame "a" group group' hget hget').2 (some "stranger") 0
    rw [hnone, hsome] at hdecision
    cases hdecision

end KAssetTrader.Proposals
