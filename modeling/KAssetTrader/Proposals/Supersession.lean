import KAssetTrader.Proposals.Turns

/-!
Replacement of proposals. A replacement inherits the root of the proposal it
replaces and marks that proposal as replaced by it. Nothing checks that the
proposal is still open: the mark of an earlier replacement is overwritten, and
both replacements can be approved. When every replacement names an open proposal,
a proposal is replaced at most once and one proposal of a root can be approved.
-/

namespace KAssetTrader.Proposals

open Transition

/-- The proposal can be approved: nothing blocks it and a rung is pending. -/
def OrderProposal.Approvable (group : OrderProposal) : Prop :=
  approvalBlockReason group = none ∧ ∃ rung ∈ group.rungs, rung.state = .pendingApproval

instance (group : OrderProposal) : Decidable group.Approvable :=
  inferInstanceAs (Decidable (_ ∧ _))

/-- A proposal that the operation replaces is neither replaced already nor in a
terminal state. -/
def ReplacesOpen (s : Store) : Operation → Prop
  | .createProposal creation _ => ∀ older ∈ creation.supersedesProposalId,
      ∀ group ∈ s.proposals.get? older, approvalBlockReason group = none
  | _ => True

instance (s : Store) : (operation : Operation) → Decidable (ReplacesOpen s operation)
  | .createProposal .. => inferInstanceAs (Decidable (∀ _ ∈ _, _))
  | .onProposal .. => .isTrue trivial
  | .recordFillEvidence .. => .isTrue trivial
  | .sweepExpired .. => .isTrue trivial
  | .startApprovalDispatch .. => .isTrue trivial
  | .finishApprovalDispatch .. => .isTrue trivial
  | .finishWebApprovalDispatch .. => .isTrue trivial
  | .registerApprovalBatchMember .. => .isTrue trivial
  | .consumeApprovalBatchNonce .. => .isTrue trivial
  | .recordApprovalBatchPayload .. => .isTrue trivial
  | .finishApprovalBatchDispatch .. => .isTrue trivial
  | .releaseApprovalBatchSummaryClaim .. => .isTrue trivial

structure Store.Exclusive (s : Store) : Prop where
  /-- A proposal is marked with the one replacement there is of it. -/
  replaced : ∀ newer group older, s.proposals.get? newer = some group →
    group.terms.supersedesProposalId = some older →
    ∃ superseded, s.proposals.get? older = some superseded ∧
      superseded.supersededByProposalId = some newer
  single : ∀ first second group other, s.proposals.get? first = some group →
    s.proposals.get? second = some other →
    group.terms.rootProposalId = other.terms.rootProposalId →
    group.Approvable → other.Approvable → first = second

def Store.MarksStay (s t : Store) : Prop :=
  ∀ proposalId group newer, s.proposals.get? proposalId = some group →
    group.supersededByProposalId = some newer →
    ∃ after, t.proposals.get? proposalId = some after ∧
      after.supersededByProposalId = some newer

section Lineage

/-- What holds of the lineage while only open proposals are replaced. -/
structure Store.Lineage (s : Store) : Prop where
  kept : s.Kept
  root : ∀ proposalId group, s.proposals.get? proposalId = some group →
    ∃ first, s.proposals.get? group.terms.rootProposalId = some first
  replaced : ∀ newer group older, s.proposals.get? newer = some group →
    group.terms.supersedesProposalId = some older →
    ∃ superseded, s.proposals.get? older = some superseded ∧
      superseded.supersededByProposalId = some newer
  unreplaced : ∀ first second group other, s.proposals.get? first = some group →
    s.proposals.get? second = some other →
    group.terms.rootProposalId = other.terms.rootProposalId →
    group.supersededByProposalId = none → other.supersededByProposalId = none → first = second

variable {s t : Store} {operation : Operation}

variable {group : OrderProposal} {proposalId : ProposalId} {after : OrderProposal}

theorem not_superseded_of_unblocked (h : approvalBlockReason group = none) :
    group.supersededByProposalId = none := by
  unfold approvalBlockReason at h
  split at h
  · cases h
  · assumption

theorem Store.Lineage.exclusive (h : s.Lineage) : s.Exclusive where
  replaced := h.replaced
  single first second group other hfirst hsecond hroot happrovable hother :=
    h.unreplaced first second group other hfirst hsecond hroot
      (not_superseded_of_unblocked happrovable.1) (not_superseded_of_unblocked hother.1)

/-- A row of the next store is new, or continues one of this store. -/
theorem step_origin (hkept : s.Kept) (h : step s operation = some t)
    (hafter : t.proposals.get? proposalId = some after) :
    s.proposals.get? proposalId = none ∨
      ∃ group, s.proposals.get? proposalId = some group ∧ after.terms = group.terms := by
  cases hget : s.proposals.get? proposalId with
  | none => exact .inl rfl
  | some group =>
    obtain ⟨_, hsame, hcontinues⟩ := step_continues hkept h hget
    cases hafter.symm.trans hsame
    exact .inr ⟨group, rfl, hcontinues.terms⟩

theorem step_mark (hkept : s.Kept) (h : step s operation = some t)
    (hget : s.proposals.get? proposalId = some group) :
    ∃ after, t.proposals.get? proposalId = some after ∧
      (after.supersededByProposalId = group.supersededByProposalId ∨
        ∃ creation now, operation = .createProposal creation now ∧
          creation.supersedesProposalId = some proposalId ∧
          after.supersededByProposalId = some creation.proposalId) := by
  have hturn := step_turn hkept h proposalId
  rw [hget] at hturn
  generalize t.proposals.get? proposalId = row at hturn
  cases hturn with
  | followed _ hfollows => exact ⟨_, rfl, .inl hfollows.lineage⟩
  | superseded creation now hop hsupersedes =>
    exact ⟨_, rfl, .inr ⟨creation, now, hop, hsupersedes, rfl⟩⟩

theorem step_marksStay (hkept : s.Kept) (hok : ReplacesOpen s operation)
    (h : step s operation = some t) : s.MarksStay t := by
  intro proposalId group newer hget hmark
  obtain ⟨after, hafter, hsame | ⟨creation, now, rfl, hsupersedes, -⟩⟩ := step_mark hkept h hget
  · exact ⟨after, hafter, hsame.trans hmark⟩
  · have hopen := not_superseded_of_unblocked (hok proposalId hsupersedes group hget)
    rw [hopen] at hmark
    cases hmark

variable (hs : s.Lineage) (hok : ReplacesOpen s operation) (h : step s operation = some t)
include hs hok h

theorem step_replaced {newer older : ProposalId} (hafter : t.proposals.get? newer = some after)
    (hsupersedes : after.terms.supersedesProposalId = some older) :
    ∃ superseded, t.proposals.get? older = some superseded ∧
      superseded.supersededByProposalId = some newer := by
  have hturn := step_turn hs.kept h newer
  rw [hafter] at hturn
  cases hget : s.proposals.get? newer with
  | some group =>
    obtain ⟨_, hsame, hcontinues⟩ := step_continues hs.kept h hget
    cases hafter.symm.trans hsame
    rw [hcontinues.terms] at hsupersedes
    obtain ⟨superseded, hold, hmark⟩ := hs.replaced newer group older hget hsupersedes
    exact step_marksStay hs.kept hok h older superseded newer hold hmark
  | none =>
    rw [hget] at hturn
    cases hturn with
    | created creation rootId deadline now hop hkey _ _ horigin =>
      obtain ⟨hnone, -⟩ | ⟨replaced, superseded, hreplaced, hold, -⟩ := horigin
      · rw [show (creation.group rootId deadline now).terms.supersedesProposalId =
          creation.supersedesProposalId from rfl, hnone] at hsupersedes
        cases hsupersedes
      · obtain rfl : replaced = older :=
          Option.some.inj (hreplaced.symm.trans hsupersedes)
        have hmarked := step_turn hs.kept h replaced
        rw [hold] at hmarked
        generalize t.proposals.get? replaced = row at hmarked
        cases hmarked with
        | followed hnot => exact absurd ⟨creation, now, hop, hreplaced⟩ hnot
        | superseded other later hother =>
          obtain ⟨rfl, -⟩ := Operation.createProposal.inj (hop.symm.trans hother)
          exact ⟨_, rfl, by rw [hkey]; rfl⟩

theorem created_alone {newer other : ProposalId} {after group : OrderProposal}
    (hnew : s.proposals.get? newer = none) (hafter : t.proposals.get? newer = some after)
    (hgroup : t.proposals.get? other = some group)
    (hroot : after.terms.rootProposalId = group.terms.rootProposalId)
    (hunreplaced : group.supersededByProposalId = none) : newer = other := by
  have hturn := step_turn hs.kept h newer
  rw [hnew, hafter] at hturn
  cases hturn with
  | created creation rootId deadline now hop hkey _ _ horigin =>
    have hotherTurn := step_turn hs.kept h other
    rw [hgroup] at hotherTurn
    cases hold : s.proposals.get? other with
    | none =>
      rw [hold] at hotherTurn
      cases hotherTurn with
      | created creation' _ _ _ hop' hkey' =>
        obtain ⟨rfl, -⟩ := Operation.createProposal.inj (hop.symm.trans hop')
        exact hkey.trans hkey'.symm
    | some earlier =>
      have hterms := step_origin hs.kept h hgroup
      rw [hold] at hterms
      obtain hbad | ⟨_, hsame, hterms⟩ := hterms
      · cases hbad
      cases hsame
      have hroot : rootId = earlier.terms.rootProposalId := hterms ▸ hroot
      obtain ⟨-, hown⟩ | ⟨older, superseded, hreplaced, holder, hrootId⟩ := horigin
      · obtain ⟨first, hfirst⟩ := hs.root other earlier hold
        rw [← hroot, hown, hnew] at hfirst
        cases hfirst
      · subst hop
        have hopen := not_superseded_of_unblocked (hok older hreplaced superseded holder)
        obtain ⟨_, hsame, hmark⟩ := step_mark hs.kept h hold
        cases hgroup.symm.trans hsame
        obtain hsame | ⟨creation', now', hop', -, hmark⟩ := hmark
        · have heq := hs.unreplaced older other superseded earlier holder hold
            (hrootId.trans hroot) hopen (hsame.symm.trans hunreplaced)
          subst heq
          rw [hold] at hotherTurn
          cases hotherTurn with
          | followed hnot => exact absurd ⟨creation, now, rfl, hreplaced⟩ hnot
          | superseded => cases hunreplaced
        · rw [hunreplaced] at hmark
          cases hmark

theorem step_lineage : t.Lineage where
  kept := step_kept hs.kept h
  root proposalId after hafter := by
    have hstays {key : ProposalId} {group : OrderProposal}
        (hget : s.proposals.get? key = some group) :
        ∃ first, t.proposals.get? key = some first := by
      obtain ⟨later, hlater, -⟩ := step_continues hs.kept h hget
      exact ⟨later, hlater⟩
    have hturn := step_turn hs.kept h proposalId
    obtain hnew | ⟨group, hget, hterms⟩ := step_origin hs.kept h hafter
    · rw [hnew, hafter] at hturn
      cases hturn with
      | created creation rootId deadline now hop hkey _ _ horigin =>
        obtain ⟨-, rfl⟩ | ⟨older, superseded, -, holder, rfl⟩ := horigin
        · exact ⟨_, hafter⟩
        · obtain ⟨first, hfirst⟩ := hs.root older superseded holder
          exact hstays hfirst
    · rw [hterms]
      obtain ⟨first, hfirst⟩ := hs.root proposalId group hget
      exact hstays hfirst
  replaced newer after older hafter hsupersedes := step_replaced hs hok h hafter hsupersedes
  unreplaced first second group other hfirst hsecond hroot hgroup hother := by
    obtain hnew | ⟨before, hbefore, hterms⟩ := step_origin hs.kept h hfirst
    · exact created_alone hs hok h hnew hfirst hsecond hroot hother
    · obtain hnew | ⟨before', hbefore', hterms'⟩ := step_origin hs.kept h hsecond
      · exact (created_alone hs hok h hnew hsecond hfirst hroot.symm hgroup).symm
      · have hmark {key : ProposalId} {earlier later : OrderProposal}
            (hget : s.proposals.get? key = some earlier)
            (hlater : t.proposals.get? key = some later)
            (hnone : later.supersededByProposalId = none) :
            earlier.supersededByProposalId = none := by
          by_contra hsome
          obtain ⟨_, hsame, hcontinues⟩ := step_continues hs.kept h hget
          cases hlater.symm.trans hsame
          exact hcontinues.superseded hsome hnone
        exact hs.unreplaced first second before before' hbefore hbefore'
          (by rw [← hterms, ← hterms', hroot]) (hmark hbefore hfirst hgroup)
          (hmark hbefore' hsecond hother)

end Lineage

/-- Along every run that replaces open proposals only, a proposal has one successor at most, and
its mark stays. -/
theorem supersession_exclusive {s : Store} (h : ReachableVia Empty step ReplacesOpen s) :
    s.Exclusive ∧
      ∀ operation t, ReplacesOpen s operation → step s operation = some t → s.MarksStay t := by
  have hlineage : s.Lineage := by
    refine invariant (fun s hempty => ?_) (fun s operation t hs => step_lineage hs) h
    obtain rfl := hempty
    constructor
    · exact empty_kept rfl
    · intro proposalId group hget
      cases hget
    · intro newer group older hget
      cases hget
    · intro first second group other hget
      cases hget
  exact ⟨hlineage.exclusive, fun operation t hok hstep => step_marksStay hlineage.kept hok hstep⟩

def buyOne (proposalId : ProposalId) (older : Option ProposalId) : Operation :=
  .createProposal
    { proposalId
      symbol := "005930"
      market := "equity_kr"
      accountMode := "toss_live"
      side := "buy"
      orderType := "limit"
      rungs := [⟨0, "buy", 1, some 70000, none⟩]
      supersedesProposalId := older }
    (seconds 1700000000)

/-- One proposal replaced by another. -/
theorem supersession_exclusive_one_replacement :
    ∃ s, ReachableVia Empty step ReplacesOpen s ∧ s.Exclusive ∧
      (s.proposals.get? "a").bind (·.supersededByProposalId) = some "b" := by
  obtain ⟨s, hrun, hmark⟩ := Option.map_eq_some_iff.mp
    (show (run step {} [buyOne "a" none, buyOne "b" (some "a")]).map
      (fun s => (s.proposals.get? "a").bind (·.supersededByProposalId)) = some (some "b") by
        decide +kernel)
  have halong : Along step ReplacesOpen {} [buyOne "a" none, buyOne "b" (some "a")] := by
    decide +kernel
  have hreach : ReachableVia Empty step ReplacesOpen s :=
    (ReachableVia.start (show Empty {} from rfl)).run halong hrun
  exact ⟨s, hreach, (supersession_exclusive hreach).1, hmark⟩

/-- Two proposals replace the same one: its mark changes from the first to the
second, and both can be approved. -/
theorem second_replacement_approvable :
    ∃ s t, Reachable Empty step s ∧ step s (buyOne "c" (some "a")) = some t ∧
      ¬ s.MarksStay t ∧ ¬ t.Exclusive := by
  obtain ⟨s, hrun, hnext⟩ := (Option.any_eq_true _ _).mp
    (show ((run step {} [buyOne "a" none, buyOne "b" (some "a")]).any fun s =>
        decide ((s.proposals.get? "a").bind (·.supersededByProposalId) = some "b") &&
        (step s (buyOne "c" (some "a"))).any fun t =>
          decide ((t.proposals.get? "a").bind (·.supersededByProposalId) = some "c") &&
          ["b", "c"].all fun key => (t.proposals.get? key).any fun g =>
            decide (g.terms.rootProposalId = "a" ∧ g.Approvable)) = true by
        decide +kernel)
  simp only [Bool.and_eq_true, Option.any_eq_true, decide_eq_true_eq, List.all_cons,
    List.all_nil, and_true, Option.bind_eq_some_iff] at hnext
  obtain ⟨⟨a, ha, hmark⟩, t, hstep, ⟨a', ha', hmark'⟩, ⟨b, hb, hbroot, hbopen⟩,
    c, hc, hcroot, hcopen⟩ := hnext
  refine ⟨s, t, reachable_of_run rfl hrun, hstep, ?_, ?_⟩
  · intro hstay
    obtain ⟨after, hafter, hsame⟩ := hstay "a" a "b" ha hmark
    cases ha'.symm.trans hafter
    rw [hmark'] at hsame
    exact absurd hsame (by decide)
  · intro hexclusive
    have heq := hexclusive.single "b" "c" b c hb hc (hbroot.trans hcroot.symm) hbopen hcopen
    exact absurd heq (by decide)

end KAssetTrader.Proposals
