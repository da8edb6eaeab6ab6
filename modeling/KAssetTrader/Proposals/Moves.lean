import KAssetTrader.Library.Checked
import KAssetTrader.Proposals.Operations

/-!
What an operation can do to a row. A rung only moves along the graph, and its
trail records every move; the terms of a proposal stay; its rolled-up state
follows its rungs, unless a replacement has marked it. These relations compose, so
each operation needs one lemma, and nothing later looks into an operation again.
-/

namespace KAssetTrader.Proposals

open RungState Checked

namespace OrderProposalRung

inductive Move (before after : OrderProposalRung) : Prop where
  | stay : after.rungIndex = before.rungIndex → after.state = before.state →
      after.trail = before.trail → Move before after
  | move : after.rungIndex = before.rungIndex → before.state.Allows after.state →
      after.trail = before.state :: before.trail → Move before after

abbrev Moves : OrderProposalRung → OrderProposalRung → Prop := Relation.ReflTransGen Move

/-- Every state that the rung has had was left for one the graph allows. -/
def Tracked (rung : OrderProposalRung) : Prop :=
  (rung.state :: rung.trail).IsChain fun later earlier => earlier.Allows later

variable {before after : OrderProposalRung}

theorem Moves.rungIndex (h : Moves before after) :
    after.rungIndex = before.rungIndex := by
  induction h with
  | refl => rfl
  | tail _ hmove ih =>
    cases hmove with
    | stay hindex => exact hindex.trans ih
    | move hindex => exact hindex.trans ih

theorem Moves.tracked (h : Moves before after) (htracked : before.Tracked) : after.Tracked := by
  induction h with
  | refl => exact htracked
  | tail _ hmove ih =>
    cases hmove with
    | stay _ hstate htrail =>
      unfold Tracked
      rw [hstate, htrail]
      exact ih
    | move _ hallows htrail =>
      unfold Tracked
      rw [htrail]
      exact List.IsChain.cons_cons hallows ih

theorem Moves.terminal (h : Moves before after) (hterminal : before.state.Terminal) :
    after.state = before.state := by
  induction h with
  | refl => rfl
  | tail _ hmove ih =>
    cases hmove with
    | stay _ hstate => exact hstate.trans ih
    | move _ hallows =>
      rw [ih] at hallows
      exact absurd hallows hterminal.not_allows

theorem move_setState {rung : OrderProposalRung} {state : RungState} (now : Instant)
    (h : rung.state.Allows state) : Move rung (rung.setState state now) :=
  .move rfl h rfl

end OrderProposalRung

namespace OrderProposal

variable {group before middle after : OrderProposal} {rungs : List OrderProposalRung}

section Relation

structure Continues (before after : OrderProposal) : Prop where
  terms : after.terms = before.terms
  rungs : List.Forall₂ OrderProposalRung.Moves before.rungs after.rungs
  superseded : before.supersededByProposalId ≠ none → after.supersededByProposalId ≠ none
  lifecycle : after.lifecycleState = recomputeGroupState (after.rungs.map (·.state)) ∨
    (after.lifecycleState = .superseded ∧ after.supersededByProposalId ≠ none) ∨
    (after.lifecycleState = before.lifecycleState ∧
      after.rungs.map (·.state) = before.rungs.map (·.state))

structure Kept (group : OrderProposal) : Prop where
  indices : (group.rungs.map (·.rungIndex)).Nodup
  tracked : ∀ rung ∈ group.rungs, rung.Tracked
  lifecycle : group.lifecycleState = recomputeGroupState (group.rungs.map (·.state)) ∨
    (group.lifecycleState = .superseded ∧ group.supersededByProposalId ≠ none)

def Retired (group : OrderProposal) : Prop :=
  group.supersededByProposalId ≠ none ∨ ∀ rung ∈ group.rungs, rung.state.Terminal

theorem forall₂_moves_refl (rungs : List OrderProposalRung) :
    List.Forall₂ OrderProposalRung.Moves rungs rungs :=
  List.forall₂_same.mpr fun _ _ => .refl

theorem forall₂_moves_trans {first second third : List OrderProposalRung}
    (h : List.Forall₂ OrderProposalRung.Moves first second)
    (h' : List.Forall₂ OrderProposalRung.Moves second third) :
    List.Forall₂ OrderProposalRung.Moves first third := by
  induction h generalizing third with
  | nil =>
    cases h'
    exact .nil
  | cons hhead _ ih =>
    cases h' with
    | cons hhead' htail' => exact .cons (hhead.trans hhead') (ih htail')

theorem Continues.of_columns (hterms : after.terms = before.terms)
    (hrungs : after.rungs = before.rungs)
    (hlifecycle : after.lifecycleState = before.lifecycleState)
    (hsuperseded : after.supersededByProposalId = before.supersededByProposalId) :
    before.Continues after where
  terms := hterms
  rungs := hrungs ▸ forall₂_moves_refl before.rungs
  superseded h := hsuperseded ▸ h
  lifecycle := .inr (.inr ⟨hlifecycle, by rw [hrungs]⟩)

theorem Continues.refl (group : OrderProposal) : group.Continues group :=
  .of_columns rfl rfl rfl rfl

theorem Continues.trans (h : before.Continues middle) (h' : middle.Continues after) :
    before.Continues after where
  terms := h'.terms.trans h.terms
  rungs := forall₂_moves_trans h.rungs h'.rungs
  superseded hbefore := h'.superseded (h.superseded hbefore)
  lifecycle := by
    rcases h'.lifecycle with hrolled | hmarked | ⟨hstate, hstates⟩
    · exact .inl hrolled
    · exact .inr (.inl hmarked)
    · rw [hstate, hstates]
      rcases h.lifecycle with hrolled | hmarked | hsame
      · exact .inl hrolled
      · exact .inr (.inl ⟨hmarked.1, h'.superseded hmarked.2⟩)
      · exact .inr (.inr hsame)

variable {later : List OrderProposalRung}

theorem forall₂_moves_indices (h : List.Forall₂ OrderProposalRung.Moves rungs later) :
    later.map (·.rungIndex) = rungs.map (·.rungIndex) := by
  induction h with
  | nil => rfl
  | cons hhead _ ih => simp only [List.map_cons, hhead.rungIndex, ih]

theorem forall₂_moves_of_mem (h : List.Forall₂ OrderProposalRung.Moves rungs later)
    {rung : OrderProposalRung} (hmem : rung ∈ later) :
    ∃ earlier ∈ rungs, OrderProposalRung.Moves earlier rung := by
  induction h with
  | nil => cases hmem
  | cons hhead _ ih =>
    rcases List.mem_cons.mp hmem with rfl | hmem
    · exact ⟨_, List.mem_cons_self, hhead⟩
    · obtain ⟨earlier, hearlier, hmoves⟩ := ih hmem
      exact ⟨earlier, List.mem_cons_of_mem _ hearlier, hmoves⟩

theorem Continues.kept (h : before.Continues after) (hkept : before.Kept) : after.Kept where
  indices := by
    rw [forall₂_moves_indices h.rungs]
    exact hkept.indices
  tracked rung hmem := by
    obtain ⟨earlier, hearlier, hmoves⟩ := forall₂_moves_of_mem h.rungs hmem
    exact hmoves.tracked (hkept.tracked earlier hearlier)
  lifecycle := by
    rcases h.lifecycle with hrolled | hmarked | ⟨hstate, hstates⟩
    · exact .inl hrolled
    · exact .inr hmarked
    · rw [hstate, hstates]
      exact hkept.lifecycle.imp_right fun hmarked => ⟨hmarked.1, h.superseded hmarked.2⟩

theorem Continues.retired (h : before.Continues after) (hretired : before.Retired) :
    after.Retired := by
  rcases hretired with hsuperseded | hterminal
  · exact .inl (h.superseded hsuperseded)
  · right
    intro rung hmem
    obtain ⟨earlier, hearlier, hmoves⟩ := forall₂_moves_of_mem h.rungs hmem
    have hended := hterminal earlier hearlier
    rw [hmoves.terminal hended]
    exact hended

theorem Kept.blocked_iff (hkept : group.Kept) :
    approvalBlockReason group ≠ none ↔ group.Retired := by
  unfold approvalBlockReason Retired
  rcases hsuperseded : group.supersededByProposalId with _ | newer
  · have hrolled : group.lifecycleState = recomputeGroupState (group.rungs.map (·.state)) := by
      rcases hkept.lifecycle with hrolled | ⟨-, hbad⟩
      · exact hrolled
      · exact absurd hsuperseded hbad
    have hnot : group.lifecycleState ≠ .superseded := hrolled ▸ recompute_ne_superseded _
    have hterminal := recompute_approvalTerminal_iff (group.rungs.map (·.state))
    rw [← hrolled] at hterminal
    simp only [List.forall_mem_map] at hterminal
    simp only [hnot, if_false, ne_eq, not_true_eq_false, false_or, ← hterminal]
    split <;> simp_all
  · simp

end Relation

/-- What an operation of the service other than its replacement does to a row. -/
structure Follows (before after : OrderProposal) : Prop where
  continues : before.Continues after
  lineage : after.supersededByProposalId = before.supersededByProposalId

theorem Follows.of_columns (hterms : after.terms = before.terms)
    (hrungs : after.rungs = before.rungs)
    (hlifecycle : after.lifecycleState = before.lifecycleState)
    (hlineage : after.supersededByProposalId = before.supersededByProposalId) :
    before.Follows after :=
  ⟨.of_columns hterms hrungs hlifecycle hlineage, hlineage⟩

theorem Follows.refl (group : OrderProposal) : group.Follows group := .of_columns rfl rfl rfl rfl

theorem Follows.trans (h : before.Follows middle) (h' : middle.Follows after) :
    before.Follows after :=
  ⟨h.continues.trans h'.continues, h'.lineage.trans h.lineage⟩

theorem Follows.of_rollUp (hterms : after.terms = group.terms)
    (hrungs : List.Forall₂ OrderProposalRung.Moves group.rungs after.rungs)
    (hlifecycle : after.lifecycleState = recomputeGroupState (after.rungs.map (·.state)))
    (hlineage : after.supersededByProposalId = group.supersededByProposalId) :
    group.Follows after where
  continues :=
    { terms := hterms
      rungs := hrungs
      superseded := fun h => hlineage ▸ h
      lifecycle := .inl hlifecycle }
  lineage := hlineage

variable {now : Instant} {rungIndex : ℤ}

section Transitions

theorem Kept.eq_of_index (hkept : group.Kept) {first second : OrderProposalRung}
    (hfirst : first ∈ group.rungs) (hsecond : second ∈ group.rungs)
    (hindex : first.rungIndex = second.rungIndex) : first = second :=
  List.inj_on_of_nodup_map hkept.indices hfirst hsecond hindex

theorem getRung_ok {rung : OrderProposalRung} (h : group.getRung rungIndex = .ok rung) :
    rung ∈ group.rungs ∧ rung.rungIndex = rungIndex := by
  unfold getRung at h
  split at h
  next found hfound =>
    cases h
    exact ⟨List.mem_of_find?_eq_some hfound, by simpa using List.find?_some hfound⟩
  · cases h

theorem Kept.putRung_moves (hkept : group.Kept) {rung moved : OrderProposalRung}
    (hmem : rung ∈ group.rungs) (hmove : OrderProposalRung.Move rung moved) :
    List.Forall₂ OrderProposalRung.Moves group.rungs (group.putRung moved).rungs := by
  have hindex : moved.rungIndex = rung.rungIndex :=
    OrderProposalRung.Moves.rungIndex (Relation.ReflTransGen.single hmove)
  unfold putRung
  rw [List.forall₂_map_right_iff, List.forall₂_same]
  intro r hr
  split
  next hsame =>
    obtain rfl := hkept.eq_of_index hr hmem (hsame.trans hindex)
    exact .single hmove
  · exact .refl

theorem Kept.putRung_follows (hkept : group.Kept) {rung audited : OrderProposalRung}
    (hmem : rung ∈ group.rungs) (hindex : audited.rungIndex = rung.rungIndex)
    (hstate : audited.state = rung.state) (htrail : audited.trail = rung.trail) :
    group.Follows (group.putRung audited) where
  continues :=
    { terms := rfl
      rungs := hkept.putRung_moves hmem (.stay hindex hstate htrail)
      superseded := fun h => h
      lifecycle := by
        refine .inr (.inr ⟨rfl, ?_⟩)
        unfold putRung
        rw [List.map_map]
        refine List.map_congr_left fun r hr => ?_
        dsimp only [Function.comp_apply]
        split
        next hsame =>
          obtain rfl := hkept.eq_of_index hr hmem (hsame.trans hindex)
          exact hstate
        · rfl }
  lineage := rfl

variable {newState : RungState} {audit : RungAudit} {evidence : FillEvidence}

variable (hkept : group.Kept)
include hkept

theorem transitionLockedRung_follows {rung : OrderProposalRung} (hmem : rung ∈ group.rungs)
    (h : group.transitionLockedRung rung newState audit = .ok after) :
    group.Follows after := by
  obtain ⟨hallowed, hafter⟩ := raiseIf_bind_ok.mp h
  cases hafter
  refine .of_rollUp rfl (hkept.putRung_moves hmem ?_) rfl rfl
  exact .move rfl (not_not.mp hallowed) rfl

theorem transitionRung_follows (h : group.transitionRung rungIndex newState audit = .ok after) :
    group.Follows after := by
  obtain ⟨rung, hrung, h⟩ := bind_ok_iff.mp h
  exact transitionLockedRung_follows hkept (getRung_ok hrung).1 h

theorem markNeedsReconfirm_follows (h : group.markNeedsReconfirm rungIndex now = .ok after) :
    group.Follows after := by
  obtain ⟨rung, hrung, h⟩ := bind_ok_iff.mp h
  exact transitionLockedRung_follows hkept (getRung_ok hrung).1 h

theorem acceptEvidence_follows (h : group.acceptEvidence rungIndex evidence now = .ok after) :
    group.Follows after := by
  obtain ⟨rung, hrung, h⟩ := bind_ok_iff.mp h
  have hmem := (getRung_ok hrung).1
  dsimp only at h
  split at h
  · cases h
    exact .refl group
  · split at h
    · split at h
      · cases h
        exact .refl group
      · cases h
        exact hkept.putRung_follows hmem rfl rfl rfl
    · exact transitionLockedRung_follows hkept hmem h

theorem acceptEvidenceForRung_follows
    (h : group.acceptEvidenceForRung rungIndex evidence now = .ok after) :
    group.Follows after := by
  obtain ⟨rung, hrung, h⟩ := bind_ok_iff.mp h
  split at h
  · obtain ⟨-, h⟩ := raiseIf_bind_ok.mp h
    cases h
    exact .refl group
  · exact transitionLockedRung_follows hkept (getRung_ok hrung).1 h

theorem sweepStaleRung_follows (h : group.sweepStaleRung rungIndex now = .ok after) :
    group.Follows after := by
  obtain ⟨rung, hrung, h⟩ := bind_ok_iff.mp h
  split at h
  · cases h
    exact .refl group
  · exact transitionLockedRung_follows hkept (getRung_ok hrung).1 h

end Transitions

section Expiry

variable {move : OrderProposalRung → OrderProposalRung} {columns : OrderProposal → OrderProposal}

theorem moveEach_of_allowed (h : ∀ rung ∈ rungs, rung.state.Allows (move rung).state) :
    moveEach move rungs = (rungs.map move, none) := by
  induction rungs with
  | nil => rfl
  | cons rung rest ih =>
    have hhead := h rung List.mem_cons_self
    have htail := ih fun r hr => h r (List.mem_cons_of_mem _ hr)
    simp only [moveEach, hhead, if_true, htail, List.map_cons]

theorem moveAll_of_allowed (h : ∀ rung ∈ group.rungs, rung.state.Allows (move rung).state) :
    group.moveAll move columns =
      (columns ({ group with rungs := group.rungs.map move }).rollUp, .ok ()) := by
  unfold moveAll
  rw [moveEach_of_allowed h]

theorem invalidRung_eq_none {states : List RungState} (h : group.invalidRung states = none) :
    ∀ rung ∈ group.rungs, rung.state ∈ states := by
  intro rung hmem
  simpa using List.find?_eq_none.mp h rung hmem

theorem forall₂_moves_map (h : ∀ rung ∈ rungs, OrderProposalRung.Move rung (move rung)) :
    List.Forall₂ OrderProposalRung.Moves rungs (rungs.map move) := by
  rw [List.forall₂_map_right_iff, List.forall₂_same]
  exact fun rung hmem => .single (h rung hmem)

def Ended (group : OrderProposal) : Prop := ∀ rung ∈ group.rungs, rung.state.Terminal

/-- The rows that `expire_if_needed`, `sweep_expired` and `void_proposal` can leave. -/
structure Retires (before after : OrderProposal) : Prop where
  follows : before.Follows after
  whole : after = before ∨ after.Ended

theorem Retires.refl (group : OrderProposal) : group.Retires group := ⟨.refl group, .inl rfl⟩

theorem Retires.trans {before middle : OrderProposal} (h : before.Retires middle)
    (h' : middle.Retires after) : before.Retires after where
  follows := h.follows.trans h'.follows
  whole := by
    rcases h'.whole with rfl | hended
    · exact h.whole
    · exact .inr hended

theorem Retires.of_moveAll
    (hmove : ∀ rung ∈ group.rungs, OrderProposalRung.Move rung (move rung) ∧ rung.state.Allows
      (move rung).state ∧ (move rung).state.Terminal)
    (hcolumns : ∀ g, (columns g).terms = g.terms ∧ (columns g).rungs = g.rungs ∧ (columns
      g).lifecycleState = g.lifecycleState ∧ (columns g).supersededByProposalId =
      g.supersededByProposalId) :
    group.Retires (group.moveAll move columns).1 := by
  rw [moveAll_of_allowed fun rung hmem => (hmove rung hmem).2.1]
  obtain ⟨hterms, hrungs, hlifecycle, hlineage⟩ :=
    hcolumns ({ group with rungs := group.rungs.map move }).rollUp
  constructor
  · refine .of_rollUp hterms ?_ ?_ hlineage
    · rw [hrungs]
      exact forall₂_moves_map fun rung hmem => (hmove rung hmem).1
    · rw [hlifecycle, hrungs]
      rfl
  · right
    intro rung hmem
    rw [hrungs] at hmem
    obtain ⟨earlier, hearlier, rfl⟩ := List.mem_map.mp hmem
    exact (hmove earlier hearlier).2.2

theorem expire_moves (hvoidable : ∀ rung ∈ group.rungs, rung.state ∈ RungState.voidable) :
    ∀ rung ∈ group.rungs,
      OrderProposalRung.Move rung (rung.setState .expired now) ∧
      rung.state.Allows (rung.setState .expired now).state ∧
      (rung.setState .expired now).state.Terminal := by
  intro rung hmem
  have hallowed := allows_expired (hvoidable rung hmem)
  exact ⟨.move rfl hallowed rfl, hallowed, rfl⟩

theorem expireIfNeeded_retires (group : OrderProposal) (now : Instant) :
    group.Retires (group.expireIfNeeded now).1 := by
  unfold expireIfNeeded
  split
  · exact .refl group
  · split
    · exact .refl group
    next hvalid =>
      exact .of_moveAll (expire_moves (invalidRung_eq_none hvalid))
        fun g => ⟨rfl, rfl, rfl, rfl⟩

theorem sweepOne_retires (group : OrderProposal) (now : Instant) :
    group.Retires (group.sweepOne now).1 := by
  unfold sweepOne
  split
  · exact .refl group
  · split
    · exact .refl group
    · split
      · exact .refl group
      next hvalid =>
        rw [Option.not_isSome_iff_eq_none] at hvalid
        exact .of_moveAll (expire_moves (invalidRung_eq_none hvalid))
          fun g => ⟨rfl, rfl, rfl, rfl⟩

theorem expireRungIfNeeded_follows (hkept : group.Kept) {expired : Bool}
    (h : group.expireRungIfNeeded rungIndex now = .ok (after, expired)) :
    group.Follows after := by
  obtain ⟨rung, hrung, h⟩ := bind_ok_iff.mp h
  have hmem := (getRung_ok hrung).1
  split at h
  · split at h
    · cases h
      exact .refl group
    · obtain ⟨hvoidable, h⟩ := raiseIf_bind_ok.mp h
      have hmoves := hkept.putRung_moves hmem
        (OrderProposalRung.move_setState now (allows_expired (not_not.mp hvoidable)))
      dsimp only at h
      split at h
      · cases h
        exact .of_rollUp rfl hmoves rfl rfl
      · cases h
        exact .of_rollUp rfl hmoves rfl rfl
  · cases h
    exact .refl group

theorem expireMutableRungsIfNeeded_follows (hkept : group.Kept)
    (h : group.expireMutableRungsIfNeeded now = .ok after) : group.Follows after := by
  unfold expireMutableRungsIfNeeded at h
  split at h
  · cases h
    exact .refl group
  · refine foldlM_invariant (P := fun g => group.Follows g) ?_ (.refl group) h
    intro g rung _ g' hfollows hstep
    obtain ⟨⟨next, expired⟩, hexpire, hnext⟩ := bind_ok_iff.mp hstep
    cases hnext
    exact hfollows.trans (expireRungIfNeeded_follows (hfollows.continues.kept hkept) hexpire)

theorem restoreRungAfterPreSendBlock_follows (hkept : group.Kept) {expired : Bool}
    (h : group.restoreRungAfterPreSendBlock rungIndex now expired = .ok after) :
    group.Follows after := by
  obtain ⟨rung, hrung, h⟩ := bind_ok_iff.mp h
  obtain ⟨restored, hrestored, h⟩ := bind_ok_iff.mp h
  have hfollows : group.Follows restored := by
    split at hrestored
    · exact transitionLockedRung_follows hkept (getRung_ok hrung).1 hrestored
    · cases hrestored
      exact .refl group
  split at h
  · obtain ⟨⟨next, expired⟩, hexpire, hnext⟩ := bind_ok_iff.mp h
    cases hnext
    exact hfollows.trans (expireRungIfNeeded_follows (hfollows.continues.kept hkept) hexpire)
  · cases h
    exact hfollows

end Expiry

theorem retire_moves {group : OrderProposal} (authority : VoidAuthority) (auditReason : String)
    (now : Instant)
    (hvoidable : ∀ rung ∈ group.rungs, rung.state ∈ .unverified :: RungState.voidable) :
    ∀ rung ∈ group.rungs,
      OrderProposalRung.Move rung (retireRung authority auditReason now rung) ∧
      rung.state.Allows (retireRung authority auditReason now rung).state ∧
      (retireRung authority auditReason now rung).state.Terminal := by
  intro rung hmem
  unfold retireRung
  rcases List.mem_cons.mp (hvoidable rung hmem) with hunverified | hlocal
  · have hallowed : rung.state.Allows .voidedLocalStale := by
      rw [hunverified]
      decide
    rw [if_pos hunverified]
    exact ⟨.move rfl hallowed rfl, hallowed, rfl⟩
  · have hother : rung.state ≠ .unverified := by
      rintro heq
      rw [heq] at hlocal
      exact absurd hlocal (by decide)
    have hallowed : rung.state.Allows authority.terminalState := by
      cases authority with
      | selfCreated => exact allows_voided hlocal
      | serverLossGuardInvalid => exact allows_voided hlocal
      | serverExpired => exact allows_expired hlocal
    rw [if_neg hother]
    refine ⟨.move rfl hallowed rfl, hallowed, ?_⟩
    cases authority <;> rfl

theorem voidProposal_retires (group : OrderProposal) (request : VoidRequest) (now : Instant) :
    group.Retires (group.voidProposal request now).1 := by
  unfold voidProposal
  dsimp only
  split
  · exact .refl group
  · split
    · exact .refl group
    · split
      · exact .refl group
      next hvalid =>
        split
        · exact .refl group
        · exact .of_moveAll (retire_moves _ _ _ (invalidRung_eq_none hvalid))
            fun g => ⟨rfl, rfl, rfl, rfl⟩

theorem voidProposal_ended {group after : OrderProposal} {request : VoidRequest} {now : Instant}
    (h : group.voidProposal request now = (after, .ok ())) : after.Ended := by
  unfold voidProposal at h
  dsimp only at h
  split at h
  · cases h
  · split at h
    · cases h
    · split at h
      · cases h
      next hvalid =>
        split at h
        · cases h
        · have hmoves := fun authority auditReason =>
            retire_moves authority auditReason now (invalidRung_eq_none hvalid)
          rw [moveAll_of_allowed fun rung hmem => (hmoves _ _ rung hmem).2.1] at h
          cases h
          intro rung hmem
          obtain ⟨earlier, hearlier, rfl⟩ := List.mem_map.mp hmem
          exact (hmoves _ _ earlier hearlier).2.2

theorem assertDispatchStillAuthorized_follows (group : OrderProposal) (now : Instant)
    (expectedNonce : Option String) :
    group.Follows (group.assertDispatchStillAuthorized now expectedNonce).1 := by
  unfold assertDispatchStillAuthorized
  split
  · exact .of_columns rfl rfl rfl rfl
  · exact .refl group

section Columns

variable {proposalId : ProposalId}

variable {nonce : String} {actorSubject : String} {actorChannel : Channel}

theorem setApprovalNonce_follows {requireRedispatchable : Bool}
    (h : group.setApprovalNonce nonce requireRedispatchable = .ok after) :
    group.Follows after := by
  obtain ⟨-, h⟩ := refuse_bind_ok.mp h
  obtain ⟨-, h⟩ := raiseIf_bind_ok.mp h
  obtain ⟨-, h⟩ := raiseIf_bind_ok.mp h
  cases h
  exact .of_columns rfl rfl rfl rfl

theorem clearApprovalNonce_follows {expectedNonce : Option String}
    (h : group.clearApprovalNonce expectedNonce = .ok after) : group.Follows after := by
  obtain ⟨-, h⟩ := raiseIf_bind_ok.mp h
  cases h
  exact .of_columns rfl rfl rfl rfl

theorem restoreApprovalAfterWindowBlock_follows {expired : Bool}
    (h : group.restoreApprovalAfterWindowBlock nonce expired = .ok after) :
    group.Follows after := by
  obtain ⟨-, h⟩ := raiseIf_bind_ok.mp h
  cases h
  exact .of_columns rfl rfl rfl rfl

theorem acquireCommitLease_follows {leaseSeconds : ℤ}
    (h : group.acquireCommitLease now leaseSeconds = some after) : group.Follows after := by
  unfold acquireCommitLease at h
  split at h
  · cases h
  · cases h
    exact .of_columns rfl rfl rfl rfl

theorem recordChannelApproval_follows {channel : Channel}
    (h : group.recordChannelApproval channel actorSubject now = .ok after) :
    group.Follows after := by
  obtain ⟨-, h⟩ := raiseIf_bind_ok.mp h
  cases h
  exact .of_columns rfl rfl rfl rfl

theorem issueLossCutConfirmation_follows {firstNonce confirmationNonce : String} {ttlSeconds : ℤ}
    (h : issueLossCutConfirmation proposalId group firstNonce confirmationNonce actorChannel
      actorSubject now ttlSeconds = .ok after) : group.Follows after := by
  obtain ⟨-, h⟩ := raiseIf_bind_ok.mp h
  obtain ⟨-, h⟩ := raiseIf_bind_ok.mp h
  obtain ⟨-, h⟩ := raiseIf_bind_ok.mp h
  obtain ⟨-, h⟩ := raiseIf_bind_ok.mp h
  cases h
  exact .of_columns rfl rfl rfl rfl

theorem consumePublishedProposalCallback_follows {callback : CallbackEnvelope ProposalDigest}
    (h : consumePublishedProposalCallback proposalId group callback actorChannel actorSubject now =
      .ok after) : group.Follows after := by
  obtain ⟨kind, -, h⟩ := bind_ok_iff.mp h
  obtain ⟨-, h⟩ := refuse_bind_ok.mp h
  obtain ⟨sourceAsof, -, h⟩ := bind_ok_iff.mp h
  cases h
  exact .of_columns rfl rfl rfl rfl

end Columns

end OrderProposal

open OrderProposal in
theorem RowOperation.run_follows {proposalId : ProposalId} {group after : OrderProposal}
    {operation : RowOperation} (hkept : group.Kept)
    (h : operation.run proposalId group = some after) : group.Follows after := by
  cases operation with
  | transitionRung rungIndex newState audit =>
    exact transitionRung_follows hkept (eq_ok_of_toOption h)
  | markNeedsReconfirm rungIndex now =>
    exact markNeedsReconfirm_follows hkept (eq_ok_of_toOption h)
  | expireIfNeeded now =>
    cases h
    exact (expireIfNeeded_retires group now).follows
  | expireRungIfNeeded rungIndex now =>
    have hmap := eq_ok_of_toOption h
    cases hexpire : group.expireRungIfNeeded rungIndex now with
    | error error =>
      rw [hexpire] at hmap
      cases hmap
    | ok result =>
      rw [hexpire] at hmap
      cases hmap
      exact expireRungIfNeeded_follows hkept hexpire
  | expireMutableRungsIfNeeded now =>
    exact expireMutableRungsIfNeeded_follows hkept (eq_ok_of_toOption h)
  | restoreRungAfterPreSendBlock rungIndex now expired =>
    exact restoreRungAfterPreSendBlock_follows hkept (eq_ok_of_toOption h)
  | voidProposal request now =>
    cases h
    exact (voidProposal_retires group request now).follows
  | recordLossGuardVerdict rungIndex error now =>
    cases h
    exact .of_columns rfl rfl rfl rfl
  | assertDispatchStillAuthorized now expectedNonce =>
    cases h
    exact assertDispatchStillAuthorized_follows group now expectedNonce
  | setApprovalNonce nonce requireRedispatchable =>
    exact setApprovalNonce_follows (eq_ok_of_toOption h)
  | clearApprovalNonce expectedNonce =>
    exact clearApprovalNonce_follows (eq_ok_of_toOption h)
  | restoreApprovalAfterWindowBlock nonce expired =>
    exact restoreApprovalAfterWindowBlock_follows (eq_ok_of_toOption h)
  | acquireCommitLease now leaseSeconds => exact acquireCommitLease_follows h
  | recordApproval telegramUserId now =>
    cases h
    exact .of_columns rfl rfl rfl rfl
  | recordChannelApproval channel actorSubject now =>
    exact recordChannelApproval_follows (eq_ok_of_toOption h)
  | recordAutoApproval =>
    cases h
    exact .of_columns rfl rfl rfl rfl
  | recordApprovalDispatch messageId chatId stamp now =>
    cases h
    exact .of_columns rfl rfl rfl rfl
  | issueLossCutConfirmation firstNonce confirmationNonce actorChannel actorSubject now
      ttlSeconds =>
      exact issueLossCutConfirmation_follows (eq_ok_of_toOption h)
  | consumePublishedProposalCallback callback actorChannel actorSubject now =>
    exact consumePublishedProposalCallback_follows (eq_ok_of_toOption h)
  | acceptEvidenceForRung rungIndex evidence now =>
    simp only [run] at h
    split at h
    · exact acceptEvidenceForRung_follows hkept (eq_ok_of_toOption h)
    · cases h
  | sweepStaleRung rungIndex now =>
    exact sweepStaleRung_follows hkept (eq_ok_of_toOption h)

end KAssetTrader.Proposals
