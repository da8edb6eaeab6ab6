import KAssetTrader.Proposals.TossFreeze
import KAssetTrader.Proposals.Moves

/-!
Which lookups of a session date a fill keeps closed. A freeze that is written on the date of a
fill holds every later lookup of that date, whatever the ledger says in between, unless the
rungs prove a normal full fill at the lookup itself. A fill that meets a freeze still frozen
since an earlier date writes nothing, and the lookups of its own date pass over the old one.
-/

namespace KAssetTrader.Proposals

open Transition Checked

section Freezes

variable {auto after : AutoApproved} {date : ℤ} {now : Instant} {group : OrderProposal}
  {filledQty : Option Decimal}

def FillFreeze.Counts (freeze : FillFreeze) (date : ℤ) : Prop :=
  freeze.sessionDate = .day date ∨ freeze.sessionDate = .malformed

instance (freeze : FillFreeze) : Decidable (freeze.Counts date) :=
  inferInstanceAs (Decidable (_ ∨ _))

def AutoApproved.Holds (auto : AutoApproved) (date : ℤ) : Prop :=
  ∃ freeze, auto = .object (.freeze freeze) ∧ freeze.Counts date

/-- A freeze that is still frozen counts on the date. -/
def AutoApproved.NoOldFreeze : AutoApproved → ℤ → Prop
  | .object (.freeze freeze), date => freeze.state = .frozen → freeze.Counts date
  | _, _ => True

instance : Decidable (auto.NoOldFreeze date) :=
  match auto with
  | .object (.freeze _) => inferInstanceAs (Decidable (_ → _))
  | .absent | .object .absent | .object .malformed | .sourceMalformed | .malformed => isTrue trivial

theorem AutoApproved.Holds.of_fill {entry : FreezeEntry}
    (hfreeze : AutoApproved.freezeOnFill (.object entry) group filledQty now = some after)
    (hfills : group.Freezes filledQty)
    (hcurrent : AutoApproved.NoOldFreeze (.object entry) (kstDate now)) :
    after.Holds (kstDate now) := by
  unfold freezeOnFill at hfreeze
  rw [if_neg (not_not.mpr hfills)] at hfreeze
  cases entry with
  | absent =>
    cases hfreeze
    exact ⟨_, rfl, .inl rfl⟩
  | malformed =>
    cases hfreeze
    exact ⟨_, rfl, .inl rfl⟩
  | freeze existing =>
    dsimp only at hfreeze
    split at hfreeze
    next hfrozen =>
      cases hfreeze
      exact ⟨existing, rfl, hcurrent hfrozen⟩
    · cases hfreeze
      exact ⟨_, rfl, .inl rfl⟩

theorem AutoApproved.Holds.freezeOnFill (h : auto.Holds (kstDate now))
    (hfreeze : auto.freezeOnFill group filledQty now = some after) :
    after.Holds (kstDate now) := by
  obtain ⟨freeze, rfl, hcounts⟩ := h
  by_cases hfills : group.Freezes filledQty
  · exact .of_fill hfreeze hfills fun _ => hcounts
  · unfold AutoApproved.freezeOnFill at hfreeze
    rw [if_pos hfills] at hfreeze
    cases hfreeze
    exact ⟨freeze, rfl, hcounts⟩

end Freezes

namespace TossWorld

variable {w t : TossWorld} {id : ProposalId} {now : Instant} {market : String}
  {faults : LookupFaults}

section Lookups

variable {auto : AutoApproved}

/-- A turn of the loop leaves a freeze that counts. -/
theorem inspectCandidate_holds (h : auto.Holds (kstDate now)) :
    (w.inspectCandidate market now faults id auto).2.Holds (kstDate now) := by
  obtain ⟨freeze, rfl, hcounts⟩ := h
  have hself : AutoApproved.Holds (.object (.freeze freeze)) (kstDate now) :=
    ⟨freeze, rfl, hcounts⟩
  unfold inspectCandidate
  dsimp only
  split
  · exact hself
  · exact hself
  · split
    · exact hself
    · split
      · split
        · split
          · exact hself
          · exact ⟨freeze.resolve now, rfl, hcounts⟩
        · exact hself
      · split
        · split
          · exact hself
          · exact ⟨freeze.reopen now, rfl, hcounts⟩
        · exact hself

/-- The turn of a candidate whose freeze counts ends the loop, unless its orders have
reconciled. -/
theorem inspectCandidate_answers (h : auto.Holds (kstDate now))
    (hopen : w.normalFullFill id = false) :
    (w.inspectCandidate market now faults id auto).1.isSome := by
  obtain ⟨freeze, rfl, hcounts⟩ := h
  have hsession : freeze.isCurrentSession (kstDate now) = none ∨
      freeze.isCurrentSession (kstDate now) = some true := by
    unfold FillFreeze.isCurrentSession
    rcases hcounts with hday | hmalformed
    · rw [hday]
      exact .inr (congrArg some (decide_eq_true rfl))
    · rw [hmalformed]
      exact .inl rfl
  unfold inspectCandidate
  rcases hsession with hsession | hsession
  · simp only [hsession, Option.isSome_some]
  · simp only [hsession, hopen, Bool.false_eq_true, if_false]
    split
    · rfl
    · split
      · split
        · rfl
        · rfl
      · rfl

variable {order : List ProposalId} {autos : ProposalId → AutoApproved}

variable (h : (autos id).Holds (kstDate now))
include h

theorem update_holds {p : ProposalId} {left : AutoApproved}
    (hleft : p = id → left.Holds (kstDate now)) :
    (Function.update autos p left id).Holds (kstDate now) := by
  by_cases hp : p = id
  · subst hp
    rw [Function.update_self]
    exact hleft rfl
  · rw [Function.update_of_ne (Ne.symm hp)]
    exact h

/-- The freezes that count are left by the whole loop. -/
theorem inspectCandidates_holds :
    ((w.inspectCandidates market now faults order autos).2 id).Holds (kstDate now) := by
  induction order generalizing autos with
  | nil => exact h
  | cons p rest ih =>
    have hleft : (Function.update autos p
        (w.inspectCandidate market now faults p (autos p)).2 id).Holds (kstDate now) := by
      apply update_holds h
      rintro rfl
      exact inspectCandidate_holds h
    unfold inspectCandidates
    split
    next freeze left hturn =>
      rw [hturn] at hleft
      exact hleft
    next left hturn =>
      rw [hturn] at hleft
      exact ih hleft

/-- A lookup that comes to a candidate whose freeze counts returns a freeze. -/
theorem inspectCandidates_answers (hopen : w.normalFullFill id = false) (hmem : id ∈ order) :
    (w.inspectCandidates market now faults order autos).1.isSome := by
  induction order generalizing autos with
  | nil => exact absurd hmem List.not_mem_nil
  | cons p rest ih =>
    unfold inspectCandidates
    split
    · rfl
    next left hturn =>
      have hp : p ≠ id := by
        rintro rfl
        have hsome : (w.inspectCandidate market now faults p (autos p)).1.isSome :=
          inspectCandidate_answers h hopen
        rw [hturn] at hsome
        cases hsome
      apply ih
      · exact update_holds h fun heq => absurd heq hp
      · exact (List.mem_cons.mp hmem).resolve_left (Ne.symm hp)

end Lookups

section Fills

/-- What is kept of the fills: the proposal of each is of Toss, and on the date of the latest
call it has a freeze that counts. -/
structure FillsKept (w : TossWorld) : Prop where
  past : ∀ fill ∈ w.fills, fill.2 ≤ w.clock
  proposal : ∀ fill ∈ w.fills, ∃ group, w.store.proposals.get? fill.1 = some group ∧
    group.terms.accountMode = "toss_live"
  holds : ∀ fill ∈ w.fills, kstDate fill.2 = kstDate w.clock →
    (w.auto fill.1).Holds (kstDate w.clock)

theorem kstDate_between {first last : Instant} (hfirst : first ≤ w.clock) (hlast : w.clock ≤ last)
    (hsame : kstDate first = kstDate last) :
    kstDate first = kstDate w.clock ∧ kstDate w.clock = kstDate last := by
  have hbefore := kstDate_mono hfirst
  have hafter := kstDate_mono hlast
  omega

theorem FillsKept.of_same (h : w.FillsKept) (hclock : w.clock ≤ t.clock)
    (hfills : t.fills = w.fills) (hstore : t.store = w.store)
    (hholds : ∀ id, (w.auto id).Holds (kstDate t.clock) → (t.auto id).Holds (kstDate t.clock)) :
    t.FillsKept := by
  constructor
  · intro fill hmem
    rw [hfills] at hmem
    exact (h.past fill hmem).trans hclock
  · intro fill hmem
    rw [hfills] at hmem
    rw [hstore]
    exact h.proposal fill hmem
  · intro fill hmem hsame
    rw [hfills] at hmem
    obtain ⟨hold, hnew⟩ := kstDate_between (h.past fill hmem) hclock hsame
    apply hholds
    rw [← hnew]
    exact h.holds fill hmem hold

variable {group after : OrderProposal} {rungIndex : ℤ} {evidence : FillEvidence}
  {filledQty : Option Decimal}

theorem acceptEvidence_terms (h : group.acceptEvidence rungIndex evidence now = .ok after) :
    after.terms = group.terms := by
  obtain ⟨locked, -, h⟩ := bind_ok_iff.mp h
  dsimp only at h
  split at h
  · cases h
    rfl
  · split at h
    · split at h
      · cases h
        rfl
      · cases h
        rfl
    · obtain ⟨-, h⟩ := raiseIf_bind_ok.mp h
      cases h
      rfl

theorem acceptEvidenceForRung_terms
    (h : group.acceptEvidenceForRung rungIndex evidence now = .ok after) :
    after.terms = group.terms := by
  obtain ⟨locked, -, h⟩ := bind_ok_iff.mp h
  split at h
  · obtain ⟨-, h⟩ := raiseIf_bind_ok.mp h
    cases h
    rfl
  · obtain ⟨-, h⟩ := raiseIf_bind_ok.mp h
    cases h
    rfl

theorem of_fill (h : w.fill id group after filledQty now = some t) :
    ∃ auto, (w.auto id).freezeOnFill group filledQty now = some auto ∧
      t.store = w.store.putProposal id after ∧ t.auto = Function.update w.auto id auto ∧
      t.clock = now ∧ ∀ fill ∈ t.fills, fill ∈ w.fills ∨
        fill = (id, now) ∧ group.Freezes filledQty ∧ ∃ entry, w.auto id = .object entry := by
  obtain ⟨auto, hauto, h⟩ := Option.bind_eq_some_iff.mp h
  cases h
  refine ⟨auto, hauto, rfl, rfl, rfl, ?_⟩
  intro fill hmem
  dsimp only at hmem
  split at hmem
  next entry hentry =>
    split at hmem
    next hfills =>
      rcases List.mem_cons.mp hmem with rfl | hmem
      · exact .inr ⟨rfl, hfills, entry, hentry⟩
      · exact .inl hmem
    · exact .inl hmem
  · exact .inl hmem

theorem FillsKept.fill (h : w.FillsKept) (hclock : w.clock ≤ now)
    (hget : w.store.proposals.get? id = some group) (hterms : after.terms = group.terms)
    (hcurrent : group.Freezes filledQty → (w.auto id).NoOldFreeze (kstDate now))
    (hfill : w.fill id group after filledQty now = some t) : t.FillsKept := by
  obtain ⟨auto, hauto, hstore, hautos, hnow, hfills⟩ := of_fill hfill
  have hproposal : ∀ p g, w.store.proposals.get? p = some g →
      g.terms.accountMode = "toss_live" →
      ∃ g', t.store.proposals.get? p = some g' ∧ g'.terms.accountMode = "toss_live" := by
    intro p g hp hmode
    rw [hstore, Store.putProposal, Dict.get?_set]
    by_cases hpid : p = id
    · subst hpid
      cases hget.symm.trans hp
      exact ⟨after, if_pos rfl, by rw [hterms, hmode]⟩
    · exact ⟨g, (if_neg hpid).trans hp, hmode⟩
  constructor
  · intro fill hmem
    rw [hnow]
    rcases hfills fill hmem with hold | ⟨rfl, -⟩
    · exact (h.past fill hold).trans hclock
    · exact le_refl now
  · intro fill hmem
    rcases hfills fill hmem with hold | ⟨rfl, hfreezes, -⟩
    · obtain ⟨g, hg, hmode⟩ := h.proposal fill hold
      exact hproposal fill.1 g hg hmode
    · exact hproposal id group hget hfreezes.1
  · intro fill hmem hsame
    rw [hnow] at hsame ⊢
    rw [hautos]
    rcases hfills fill hmem with hold | ⟨rfl, hfreezes, entry, hentry⟩
    · obtain ⟨hbefore, hdate⟩ := kstDate_between (h.past fill hold) hclock hsame
      have hheld := h.holds fill hold hbefore
      rw [hdate] at hheld
      apply update_holds hheld
      intro heq
      rw [← heq] at hheld
      exact hheld.freezeOnFill hauto
    · rw [hentry] at hauto hcurrent
      dsimp only
      rw [Function.update_self]
      exact .of_fill hauto hfreezes (hcurrent hfreezes)

end Fills

/-- The condition on a fill of a proposal: no freeze of it is still frozen since another date. -/
def NoOldFreeze (w : TossWorld) (id : ProposalId) (filledQty : Option Decimal) (now : Instant) :
    Prop :=
  ∀ group ∈ w.store.proposals.get? id, group.Freezes filledQty →
    (w.auto id).NoOldFreeze (kstDate now)

instance (filledQty : Option Decimal) : Decidable (w.NoOldFreeze id filledQty now) :=
  inferInstanceAs (Decidable (∀ group ∈ w.store.proposals.get? id, _))

/-- No fill comes on a proposal whose freeze is still frozen since another date. -/
def MeetsNoOldFreeze (w : TossWorld) : TossAction → Prop
  | .recordFillEvidence evidence now =>
    ∀ found ∈ w.store.findRungByEvidence evidence,
      w.NoOldFreeze found.1 evidence.filledQty now
  | .recordFillEvidenceForRung proposalId _ evidence now =>
    w.NoOldFreeze proposalId evidence.filledQty now
  | .lookup .. | .reconcile _ => True

instance (action : TossAction) : Decidable (w.MeetsNoOldFreeze action) :=
  match action with
  | .recordFillEvidence evidence _ =>
    inferInstanceAs (Decidable (∀ found ∈ w.store.findRungByEvidence evidence, _))
  | .recordFillEvidenceForRung .. => inferInstanceAs (Decidable (NoOldFreeze ..))
  | .lookup .. | .reconcile _ => isTrue trivial

section

variable (h : w.FillsKept) (hclock : w.clock ≤ now)
include h hclock

theorem FillsKept.recordFillEvidence {evidence : FillEvidence}
    (hcurrent : w.MeetsNoOldFreeze (.recordFillEvidence evidence now))
    (hstep : w.recordFillEvidence evidence now = some t) : t.FillsKept := by
  unfold TossWorld.recordFillEvidence at hstep
  split at hstep
  · cases hstep
  · split at hstep
    · cases hstep
      exact h.of_same hclock rfl rfl fun _ hheld => hheld
    next proposalId rung hfound =>
      obtain ⟨group, hget, hstep⟩ := Option.bind_eq_some_iff.mp hstep
      obtain ⟨locked, -, hstep⟩ := Option.bind_eq_some_iff.mp hstep
      split at hstep
      · cases hstep
        exact h.of_same hclock rfl rfl fun _ hheld => hheld
      · obtain ⟨after, hafter, hstep⟩ := Option.bind_eq_some_iff.mp hstep
        apply h.fill hclock hget (acceptEvidence_terms (eq_ok_of_toOption hafter)) _ hstep
        exact hcurrent _ hfound group hget

theorem FillsKept.recordFillEvidenceForRung {rungIndex : ℤ} {evidence : FillEvidence}
    (hcurrent : w.MeetsNoOldFreeze (.recordFillEvidenceForRung id rungIndex evidence now))
    (hstep : w.recordFillEvidenceForRung id rungIndex evidence now = some t) : t.FillsKept := by
  unfold TossWorld.recordFillEvidenceForRung at hstep
  split at hstep
  · cases hstep
  · obtain ⟨group, hget, hstep⟩ := Option.bind_eq_some_iff.mp hstep
    obtain ⟨locked, -, hstep⟩ := Option.bind_eq_some_iff.mp hstep
    obtain ⟨after, hafter, hstep⟩ := Option.bind_eq_some_iff.mp hstep
    split at hstep
    · cases hstep
      exact h.of_same hclock rfl rfl fun _ hheld => hheld
    · apply h.fill hclock hget (acceptEvidenceForRung_terms (eq_ok_of_toOption hafter)) _ hstep
      exact hcurrent group hget

theorem FillsKept.lookup {group : OrderProposal} {order : List ProposalId} :
    (w.activeTossAutoSubmissionFreeze group now order faults).2.FillsKept := by
  unfold activeTossAutoSubmissionFreeze
  split
  · exact h.of_same hclock rfl rfl fun _ hheld => hheld
  · split
    · exact h.of_same hclock rfl rfl fun _ hheld => hheld
    · exact h.of_same hclock rfl rfl fun _ hheld => inspectCandidates_holds hheld

end

/-- A step that meets no freeze of the day before keeps the fills covered. -/
theorem FillsKept.step {action : TossAction} (h : w.FillsKept)
    (hcurrent : w.MeetsNoOldFreeze action) (hstep : w.step action = some t) : t.FillsKept := by
  cases action with
  | recordFillEvidence evidence now =>
    obtain ⟨hclock, hstep⟩ := Option.ite_none_right_eq_some.mp hstep
    exact h.recordFillEvidence hclock hcurrent hstep
  | recordFillEvidenceForRung proposalId rungIndex evidence now =>
    obtain ⟨hclock, hstep⟩ := Option.ite_none_right_eq_some.mp hstep
    exact h.recordFillEvidenceForRung hclock hcurrent hstep
  | lookup group now order faults =>
    obtain ⟨⟨hclock, -⟩, hstep⟩ := Option.ite_none_right_eq_some.mp hstep
    cases hstep
    exact h.lookup hclock
  | reconcile ledger =>
    cases hstep
    exact h.of_same (le_refl w.clock) rfl rfl fun _ hheld => hheld

theorem FillsKept.start (h : Start w) : w.FillsKept := by
  have hnone : ∀ fill, fill ∉ w.fills := by
    intro fill hmem
    rw [show w.fills = [] from h] at hmem
    cases hmem
  constructor
  · intro fill hmem
    exact absurd hmem (hnone fill)
  · intro fill hmem
    exact absurd hmem (hnone fill)
  · intro fill hmem
    exact absurd hmem (hnone fill)

/-- What the interlock promises of every lookup that can follow: when an order of the account
has filled on the date of the lookup, a freeze is returned, unless the rungs of the filled
proposal now prove a normal and reconciled fill. -/
def FreezeSound (w : TossWorld) : Prop :=
  ∀ fill ∈ w.fills, ∀ filled, w.store.proposals.get? fill.1 = some filled →
    ∀ (group : OrderProposal) (now : Instant) (order : List ProposalId) (faults : LookupFaults),
      w.clock ≤ now → kstDate now = kstDate fill.2 →
      order.Perm (w.candidates group.terms.brokerAccountId) →
      group.terms.accountMode = "toss_live" →
      group.terms.brokerAccountId = filled.terms.brokerAccountId →
      (w.activeTossAutoSubmissionFreeze group now order faults).1.isSome ∨
        isNormalTossFullFillReconciled w.ledger filled = true

/-- In every run whose fills meet no freeze of another date, each fill holds the lookups of its
account for the rest of its date in Seoul. -/
theorem fill_freezes_submissions (h : ReachableVia Start step MeetsNoOldFreeze w) :
    w.FreezeSound := by
  have hkept : w.FillsKept :=
    invariant (fun _ => FillsKept.start) (fun _ _ _ hkept hcurrent => hkept.step hcurrent) h
  intro fill hmem filled hfilled group now order faults hclock hdate horder hmode haccount
  cases hnormal : isNormalTossFullFillReconciled w.ledger filled with
  | true => exact .inr rfl
  | false =>
    left
    obtain ⟨hbefore, hnow⟩ := kstDate_between (hkept.past fill hmem) hclock hdate.symm
    have hholds := hkept.holds fill hmem hbefore
    rw [hnow] at hholds
    have hopen : w.normalFullFill fill.1 = false := by
      rw [normalFullFill, hfilled]
      exact hnormal
    have hcandidate : fill.1 ∈ w.candidates group.terms.brokerAccountId := by
      obtain ⟨other, hother, hotherMode⟩ := hkept.proposal fill hmem
      cases hfilled.symm.trans hother
      obtain ⟨freeze, hfreeze, -⟩ := hholds
      apply List.mem_map.mpr
      refine ⟨(fill.1, filled), List.mem_filter.mpr ⟨?_, ?_⟩, rfl⟩
      · exact (Dict.get?_eq_some _).mp hfilled
      · apply decide_eq_true
        refine ⟨hotherMode, ?_, haccount.symm⟩
        rw [hfreeze]
        exact AutoApproved.noConfusion
    unfold activeTossAutoSubmissionFreeze
    rw [if_neg (not_not.mpr hmode)]
    split
    · rfl
    · exact inspectCandidates_answers hholds hopen (horder.mem_iff.mpr hcandidate)

/-- A buy of two shares, automatically approved and resting at the broker. -/
def restingBuy : OrderProposal where
  terms :=
    { rootProposalId := "a"
      supersedesProposalId := none
      symbol := "AAPL"
      market := "equity_us"
      accountMode := "toss_live"
      side := "buy"
      orderType := "limit"
      action := "place"
      brokerAccountId := some "1"
      targetBrokerOrderId := none
      exitIntent := none
      exitReason := none
      retrospectiveId := none
      approvalIssueId := none
      validUntil := none
      createdAt := seconds 1700050000 }
  rungs := [
    { rungIndex := 0
      side := "buy"
      quantity := 2
      limitPrice := some 190
      notional := none
      state := .resting
      brokerOrderId := some "order"
      idempotencyKey := some "client"
      updatedAt := seconds 1700050000 }]

def restingWorld : TossWorld where
  store := { proposals := Dict.empty.set "a" restingBuy }
  auto := fun _ => .object .absent
  clock := seconds 1700050000

def fillOf (terminalState : RungState) (filledQty : Decimal) : FillEvidence where
  brokerOrderId := some "order"
  accountMode := some "toss_live"
  filledQty := some filledQty
  terminalState

/-- Two fills before midnight, with the lookup after the first one. -/
theorem fill_freezes_submissions_same_date :
    ∃ w, ReachableVia Start step MeetsNoOldFreeze w ∧ w.FreezeSound ∧
      w.fills.map Prod.fst = ["a", "a"] ∧
      (w.activeTossAutoSubmissionFreeze restingBuy (seconds 1700060000) ["a"] {}).1.isSome := by
  have halong : Along step MeetsNoOldFreeze restingWorld
      [.recordFillEvidence (fillOf .partiallyFilled 1) (seconds 1700058000),
        .lookup restingBuy (seconds 1700058100) ["a"] {},
        .recordFillEvidence (fillOf .filled 2) (seconds 1700058600)] := by
    decide +kernel
  obtain ⟨w, hrun, hends⟩ := (Option.any_eq_true _ _).mp
    (show ((run step restingWorld
      [.recordFillEvidence (fillOf .partiallyFilled 1) (seconds 1700058000),
        .lookup restingBuy (seconds 1700058100) ["a"] {},
        .recordFillEvidence (fillOf .filled 2) (seconds 1700058600)]).any fun w =>
        decide (w.fills.map Prod.fst = ["a", "a"] ∧
          (w.activeTossAutoSubmissionFreeze restingBuy (seconds 1700060000) ["a"]
            {}).1.isSome)) = true by
        decide +kernel)
  have hreach : ReachableVia Start step MeetsNoOldFreeze w :=
    (ReachableVia.start (show Start restingWorld from rfl)).run halong hrun
  exact ⟨w, hreach, fill_freezes_submissions hreach, of_decide_eq_true hends⟩

/-- A second fill half an hour after midnight finds the freeze of the evening before still
frozen, and the next automatic submission of the account is let through. -/
theorem fill_after_midnight_unfrozen : ∃ w, Reachable Start step w ∧ ¬ w.FreezeSound := by
  obtain ⟨w, hrun, hends⟩ := (Option.any_eq_true _ _).mp
    (show ((run step restingWorld
      [.recordFillEvidence (fillOf .partiallyFilled 1) (seconds 1700058600),
        .recordFillEvidence (fillOf .filled 2) (seconds 1700062200)]).any fun w =>
        decide (("a", seconds 1700062200) ∈ w.fills ∧ w.clock ≤ seconds 1700064000 ∧
          w.candidates (some "1") = ["a"] ∧
          (w.activeTossAutoSubmissionFreeze restingBuy (seconds 1700064000) ["a"]
            {}).1.isSome = false ∧
          (w.store.proposals.get? "a").any fun filled => decide
            (filled.terms.brokerAccountId = some "1" ∧
              isNormalTossFullFillReconciled w.ledger filled = false))) = true by
        decide +kernel)
  obtain ⟨hmem, hclock, hcandidates, hanswer, hfilled⟩ := of_decide_eq_true hends
  obtain ⟨filled, hget, hopen⟩ := (Option.any_eq_true _ _).mp hfilled
  obtain ⟨haccount, hopen⟩ := of_decide_eq_true hopen
  refine ⟨w, reachable_of_run (show Start restingWorld from rfl) hrun, ?_⟩
  intro hsound
  have horder : ["a"].Perm (w.candidates restingBuy.terms.brokerAccountId) := by
    rw [show restingBuy.terms.brokerAccountId = some "1" from rfl, hcandidates]
  rcases hsound _ hmem filled hget restingBuy (seconds 1700064000) ["a"] {} hclock
    (by decide) horder rfl haccount.symm with hsome | hnormal
  · rw [hanswer] at hsome
    cases hsome
  · rw [hopen] at hnormal
    cases hnormal

end TossWorld

end KAssetTrader.Proposals
