import KAssetTrader.Proposals.Marks

/-!
Nonces that a refused dispatch has burned. A burned one stays rejected unless an operation brings
it back to its row; the undoing of a click does when the row has none.
-/

namespace KAssetTrader.Proposals

open Checked Transition

variable {s t : Store} {operation : Operation} {proposalId : ProposalId} {nonce : String}

def Operation.issued? : Operation → Option (ProposalId × String)
  | .onProposal proposalId operation => operation.issued?.map fun nonce => (proposalId, nonce)
  | _ => none

def Store.HasNonce (s : Store) (proposalId : ProposalId) (nonce : String) : Prop :=
  ∃ group, s.proposals.get? proposalId = some group ∧ nonce ∈ group.approvalNonce

theorem issued?_of_on {row : Option RowOperation} (hrow : operation.on? proposalId = row)
    (h : row.bind (·.issued?) = some nonce) : operation.issued? = some (proposalId, nonce) := by
  subst hrow
  unfold Operation.on? at h
  split at h
  · split_ifs at h with hkey
    · subst hkey
      exact congrArg (Option.map _) h
    · cases h
  · cases h

theorem step_nonce (h : step s operation = some t) (hnonce : t.HasNonce proposalId nonce) :
    operation.issued? = some (proposalId, nonce) ∨ s.HasNonce proposalId nonce := by
  obtain ⟨after, hafter, hnonce⟩ := hnonce
  by_cases hcreated : operation.created? = some proposalId
  · cases operation with
    | createProposal creation now =>
      cases hcreated
      obtain ⟨rootId, deadline, -, hnew⟩ := step_created h
      cases hafter.symm.trans hnew
      cases hnonce
    | _ => cases hcreated
  · have hrow := step_marks h hcreated
    rw [hafter] at hrow
    generalize hbefore : s.proposals.get? proposalId = before at hrow
    cases hrow with
    | some hmarks =>
      exact (hmarks.nonce nonce hnonce).imp (issued?_of_on rfl) fun hold => ⟨_, hbefore, hold⟩

def Operation.burns (s : Store) : Operation → List (ProposalId × String)
  | .onProposal proposalId (.assertDispatchStillAuthorized now expectedNonce) =>
    match s.proposals.get? proposalId with
    | some group =>
      if (group.dispatchRefusal now expectedNonce).isSome then
        (group.approvalNonce.map fun nonce => (proposalId, nonce)).toList
      else []
    | none => []
  | _ => []

structure BurnWorld where
  store : Store
  burned : List (ProposalId × String) := []

namespace BurnWorld

variable {w w' : BurnWorld}

def step (w : BurnWorld) (operation : Operation) : Option BurnWorld :=
  (Proposals.step w.store operation).map fun store =>
    { store, burned := operation.burns w.store ++ w.burned }

def clicked? : Operation → Option (ProposalId × String)
  | .onProposal proposalId (.consumePublishedProposalCallback callback _ _ _) =>
    some (proposalId, callback.nonce)
  | _ => none

def RejectsBurned (w : BurnWorld) (operation : Operation) : Prop :=
  ∀ clicked ∈ clicked? operation, clicked ∈ w.burned → w.step operation = none

def IssuesUnburned (w : BurnWorld) (operation : Operation) : Prop :=
  ∀ issued ∈ operation.issued?, issued ∉ w.burned

instance (w : BurnWorld) (operation : Operation) : Decidable (w.RejectsBurned operation) :=
  inferInstanceAs (Decidable (∀ clicked ∈ clicked? operation, clicked ∈ w.burned → _ = none))

instance (w : BurnWorld) (operation : Operation) : Decidable (w.IssuesUnburned operation) :=
  inferInstanceAs (Decidable (∀ issued ∈ operation.issued?, issued ∉ w.burned))

def Kept (w : BurnWorld) : Prop :=
  ∀ proposalId nonce, w.store.HasNonce proposalId nonce → (proposalId, nonce) ∉ w.burned

/-- An operation that issues no burned nonce brings none back. -/
theorem Kept.step (hkept : w.Kept) (hissues : w.IssuesUnburned operation)
    (h : w.step operation = some w') : w'.Kept := by
  obtain ⟨store, hstep, rfl⟩ := Option.map_eq_some_iff.mp h
  intro proposalId nonce hnonce hburned
  obtain hnew | hold := List.mem_append.mp hburned
  · unfold Operation.burns at hnew
    split at hnew
    next key now expectedNonce =>
      split at hnew
      next group hgroup =>
        split_ifs at hnew with hrefused
        · obtain ⟨burned, -, hpair⟩ := Option.map_eq_some_iff.mp (Option.mem_toList.mp hnew)
          cases hpair
          obtain ⟨reason, hreason⟩ := Option.isSome_iff_exists.mp hrefused
          obtain ⟨after, hafter, hin⟩ := hnonce
          unfold Proposals.step RowOperation.run OrderProposal.assertDispatchStillAuthorized
            at hstep
          simp only [hgroup, hreason, Option.bind_eq_bind, Option.bind_some] at hstep
          cases hstep
          rw [Store.get?_putProposal, if_pos rfl] at hafter
          cases hafter
          cases hin
        · cases hnew
      · cases hnew
    · cases hnew
  · obtain hissued | hbefore := step_nonce hstep hnonce
    · exact hissues _ hissued hold
    · exact hkept proposalId nonce hbefore hold

theorem Kept.rejects (hkept : w.Kept) (operation : Operation) : w.RejectsBurned operation := by
  intro clicked hclicked hburned
  unfold clicked? at hclicked
  split at hclicked
  case h_2 => cases hclicked
  next proposalId callback actorChannel actorSubject now =>
  cases hclicked
  unfold BurnWorld.step
  rw [Option.map_eq_none_iff, Option.eq_none_iff_forall_not_mem]
  intro store hstep
  obtain ⟨group, hgroup, hstep⟩ := Option.bind_eq_some_iff.mp hstep
  obtain ⟨after, hafter, -⟩ := Option.bind_eq_some_iff.mp hstep
  obtain ⟨⟨kind, hkind⟩, -⟩ := consumePublished_ok_iff.mp ⟨after, eq_ok_of_toOption hafter⟩
  exact hkept proposalId callback.nonce ⟨group, hgroup, (assertPublished_unused hkind).2⟩ hburned

/-- Along a run in which no operation brings back a burned nonce, no click with one is
accepted. -/
theorem burned_nonces_rejected (s : Store) (operations : List Operation)
    (h : Along BurnWorld.step IssuesUnburned { store := s } operations) :
    Along BurnWorld.step RejectsBurned { store := s } operations := by
  have hkept : Kept { store := s } := fun _ _ _ => List.not_mem_nil
  generalize BurnWorld.mk s [] = w at h hkept
  induction operations generalizing w with
  | nil => trivial
  | cons operation rest ih =>
    exact ⟨hkept.rejects operation, fun next hnext =>
      ih next (h.2 next hnext) (hkept.step h.1 hnext)⟩

def sellLadder : Operation :=
  .createProposal
    { proposalId := "a"
      symbol := "005930"
      market := "equity_kr"
      accountMode := "toss_live"
      side := "sell"
      orderType := "limit"
      rungs := [⟨0, "sell", 1, some 70000, none⟩, ⟨1, "sell", 1, some 71000, none⟩,
        ⟨2, "sell", 1, some 72000, none⟩] }
    (seconds 1700000000)

def clickLadder (now : Instant) : Operation :=
  .onProposal "a" (.consumePublishedProposalCallback (approveCallback "first" 1 .manual 1)
    .telegram "" now)

/-- The ladder is clicked: the preview of the first rung violates the loss guard, so that the
send of the second one is refused. -/
def refusedLadder : List Operation :=
  sellLadder :: publishCard "first" 1 .manual 1 (seconds 1700000001) ++
    [clickLadder (seconds 1700000060),
      .onProposal "a" (.acquireCommitLease (seconds 1700000060) 10),
      .onProposal "a" (.recordApproval "user" (seconds 1700000060)),
      .onProposal "a" (.transitionRung 0 .revalidating { updatedAt := seconds 1700000061 }),
      .onProposal "a" (.transitionRung 0 .pendingApproval { updatedAt := seconds 1700000061 }),
      .onProposal "a" (.recordLossGuardVerdict 0 (some "loss_sell_blocked")
        (seconds 1700000061)),
      .onProposal "a" (.transitionRung 1 .revalidating { updatedAt := seconds 1700000062 }),
      .onProposal "a" (.assertDispatchStillAuthorized (seconds 1700000062) (some "first")),
      .onProposal "a" (.transitionRung 1 .pendingApproval { updatedAt := seconds 1700000062 })]

/-- Every refusal burns its nonce, and the last click is of a burned one. -/
theorem refused_ladder_rejected :
    Along BurnWorld.step RejectsBurned { store := {} }
      (refusedLadder ++ [clickLadder (seconds 1700000070)]) :=
  burned_nonces_rejected {} _ (by decide +kernel)

/-- The window of the third rung is blocked, and the undoing of the click brings the burned
nonce back. -/
theorem restored_ladder_accepted :
    ¬ Along BurnWorld.step RejectsBurned { store := {} } (refusedLadder ++
      [.onProposal "a" (.restoreApprovalAfterWindowBlock "first" false),
        clickLadder (seconds 1700000070)]) := by
  decide +kernel

end BurnWorld

end KAssetTrader.Proposals
