import KAssetTrader.Proposals.TossFills

/-!
Evidence of the fills of one rung, delivered in any order and any number of times through the
two functions that record it. The functions share the graph of states, but treat evidence for
the state that the rung already has in different ways, and a move writes any quantity.
Quantities are those the column keeps, with twelve decimal places.
-/

namespace KAssetTrader.Proposals

open Checked

variable {group : OrderProposal} {rung : OrderProposalRung} {evidence : FillEvidence}
  {now : Instant}

section Rung

namespace OrderProposalRung

/-- `_transition_locked_rung`, of the rung alone. -/
def moveTo (rung : OrderProposalRung) (evidence : FillEvidence) (now : Instant) :
    Except ProposalError OrderProposalRung := do
  raiseIf (¬ rung.state.Allows evidence.terminalState)
    (.invalidStateTransition rung.state evidence.terminalState)
  return (rung.setState evidence.terminalState now).audited
    { updatedAt := now, filledQty := evidence.filledQty }

/-- The end of `record_fill_evidence`, of a rung that is not terminal. -/
def takeEvidence (rung : OrderProposalRung) (evidence : FillEvidence) (now : Instant) :
    Except ProposalError OrderProposalRung :=
  if rung.state = evidence.terminalState then
    if (evidence.filledQty.bind fun q => rung.filledQty.map fun old => decide (q ≤ old)) =
        some true then .ok rung
    else .ok (rung.audited { updatedAt := now, filledQty := evidence.filledQty })
  else rung.moveTo evidence now

end OrderProposalRung

variable {rungIndex : ℤ}

theorem OrderProposal.getRung_putRung {written : OrderProposalRung}
    (h : group.getRung rungIndex = .ok rung) (hindex : written.rungIndex = rungIndex) :
    (group.putRung written).getRung rungIndex = .ok written := by
  have hmem := OrderProposal.getRung_ok h
  unfold getRung putRung
  have hsame : ((fun r : OrderProposalRung => decide (r.rungIndex = rungIndex)) ∘ fun r =>
      if r.rungIndex = written.rungIndex then written else r) =
        fun r => decide (r.rungIndex = rungIndex) := by
    funext r
    rw [Function.comp_apply, hindex]
    by_cases hr : r.rungIndex = rungIndex
    · rw [if_pos hr, hindex, hr]
    · rw [if_neg hr]
  rw [List.find?_map, hsame]
  cases hfind : group.rungs.find? (fun r => decide (r.rungIndex = rungIndex)) with
  | none => simpa [hmem.2] using List.find?_eq_none.mp hfind rung hmem.1
  | some found =>
    have hfound : found.rungIndex = written.rungIndex := by
      simpa [hindex] using List.find?_some hfind
    simp only [Option.map_some, hfound, if_true]

variable (h : group.getRung rungIndex = .ok rung)
include h

theorem OrderProposal.transitionLockedRung_rung :
    ((group.transitionLockedRung rung evidence.terminalState
        { updatedAt := now, filledQty := evidence.filledQty }).bind
      fun after => after.getRung rungIndex) = rung.moveTo evidence now := by
  unfold transitionLockedRung OrderProposalRung.moveTo raiseIf
  split_ifs
  · exact getRung_putRung h (getRung_ok h).2
  · rfl

theorem OrderProposal.acceptEvidence_rung (hopen : ¬ rung.state.Terminal) :
    ((group.acceptEvidence rungIndex evidence now).bind fun after => after.getRung rungIndex) =
      rung.takeEvidence evidence now := by
  unfold acceptEvidence OrderProposalRung.takeEvidence
  rw [h, ok_bind]
  simp only [hopen, if_false]
  split_ifs
  · exact h
  · exact getRung_putRung h (getRung_ok h).2
  · exact transitionLockedRung_rung h

theorem OrderProposal.acceptEvidenceForRung_rung (hopen : ¬ rung.state.Terminal) :
    ((group.acceptEvidenceForRung rungIndex evidence now).bind
      fun after => after.getRung rungIndex) = rung.moveTo evidence now := by
  unfold acceptEvidenceForRung
  rw [h, ok_bind]
  simp only [hopen, if_false]
  exact transitionLockedRung_rung h

end Rung

inductive FillEntry where
  | recordFillEvidence
  | recordFillEvidenceForRung

/-- Evidence whose keys identify the rung. -/
structure FillDelivery where
  entry : FillEntry
  evidence : FillEvidence
  now : Instant
  reportable : evidence.Reportable

/-- A rung of a proposal, the value of the proposal under `auto_approved`, and the evidence
that the rung has taken. -/
structure FillRun where
  group : OrderProposal
  rung : OrderProposalRung
  auto : AutoApproved
  applied : List FillEvidence := []

namespace FillRun

def write (run : FillRun) (evidence : FillEvidence) (now : Instant)
    (written : Except ProposalError OrderProposalRung) : Except ProposalError FillRun :=
  match run.auto.freezeOnFill run.group evidence.filledQty now with
  | none => .error (.valueError "source_asof")
  | some auto => written.map fun rung =>
    { run with rung, auto, applied := evidence :: run.applied }

/-- `record_fill_evidence`. Only a rung that accepts evidence is found. -/
def recordFillEvidence (run : FillRun) (evidence : FillEvidence) (now : Instant) :
    Except ProposalError FillRun :=
  if run.rung.state ∉ RungState.evidenceAccepting then .ok run
  else if run.rung.state.Terminal then .ok run
  else run.write evidence now (run.rung.takeEvidence evidence now)

def recordFillEvidenceForRung (run : FillRun) (evidence : FillEvidence) (now : Instant) :
    Except ProposalError FillRun :=
  if run.rung.state.Terminal then
    if run.rung.state = evidence.terminalState ∧
        run.rung.brokerOrderId = evidence.brokerOrderId then .ok run
    else .error (.error "proposal_terminal_evidence_conflict")
  else run.write evidence now (run.rung.moveTo evidence now)

def deliver (run : FillRun) (delivery : FillDelivery) : Except ProposalError FillRun :=
  match delivery.entry with
  | .recordFillEvidence => run.recordFillEvidence delivery.evidence delivery.now
  | .recordFillEvidenceForRung => run.recordFillEvidenceForRung delivery.evidence delivery.now

/-- The call of the service that makes a delivery to the rung of an index. -/
def serve (run : FillRun) (rungIndex : ℤ) (delivery : FillDelivery) :
    Except ProposalError OrderProposal :=
  match delivery.entry with
  | .recordFillEvidence => run.group.acceptEvidence rungIndex delivery.evidence delivery.now
  | .recordFillEvidenceForRung =>
    run.group.acceptEvidenceForRung rungIndex delivery.evidence delivery.now

def after (run : FillRun) (delivery : FillDelivery) : FillRun :=
  match run.deliver delivery with
  | .ok next => next
  | .error _ => run

end FillRun

structure FillDelivery.Keeps (run : FillRun) (delivery : FillDelivery) : Prop where
  grows : ∀ q ∈ run.rung.filledQty, ∃ f ∈ (run.after delivery).rung.filledQty, q ≤ f
  absorbs : run.rung.state.Terminal → (run.after delivery).rung = run.rung
  repeats : delivery.evidence ∈ run.applied →
    (∃ next, run.deliver delivery = .ok next) ∧ (run.after delivery).rung = run.rung

def FillDelivery.Moves (run : FillRun) (delivery : FillDelivery) : Prop :=
  run.rung.state.Allows delivery.evidence.terminalState ∧
    (delivery.entry = .recordFillEvidence → run.rung.state ∈ RungState.evidenceAccepting) ∧
    run.auto.freezeOnFill run.group delivery.evidence.filledQty delivery.now ≠ none

/-- A move does not carry less than is recorded, and evidence comes again to the first function
with a quantity, or to the second when the rung has ended with it. -/
structure FillDelivery.Orderly (run : FillRun) (delivery : FillDelivery) : Prop where
  moves : delivery.Moves run → ∀ q ∈ run.rung.filledQty, ∀ f ∈ delivery.evidence.filledQty, q ≤ f
  repeats : delivery.evidence ∈ run.applied →
    match delivery.entry with
    | .recordFillEvidence => run.rung.state = .partiallyFilled →
        delivery.evidence.filledQty = none → delivery.now = run.rung.updatedAt
    | .recordFillEvidenceForRung => run.rung.state.Terminal ∧
        run.rung.state = delivery.evidence.terminalState ∧
        run.rung.brokerOrderId = delivery.evidence.brokerOrderId

section Steps

variable {run next : FillRun} {delivery : FillDelivery} {written : OrderProposalRung}
  {auto auto' : AutoApproved} {filledQty : Option Decimal}

theorem AutoApproved.freezeOnFill_eq_none_iff :
    auto.freezeOnFill group filledQty now = none ↔
      auto = .sourceMalformed ∧ group.Freezes filledQty := by
  unfold freezeOnFill
  by_cases hfreezes : group.Freezes filledQty
  · simp only [hfreezes, not_true_eq_false, if_false, and_true]
    split
    · simp
    · simp
    · simp
    · split_ifs <;> simp
    · simp
  · simp [hfreezes]

theorem AutoApproved.freezeOnFill_malformed
    (h : auto.freezeOnFill group filledQty now = some auto') (hbad : auto' = .sourceMalformed) :
    auto = .sourceMalformed := by
  unfold freezeOnFill at h
  subst hbad
  split at h
  · exact Option.some.inj h
  · dsimp only at h
    split at h
    · exact Option.some.inj h
    · exact Option.some.inj h
    · cases h
    · split_ifs at h
      · exact Option.some.inj h
      · cases Option.some.inj h
    · cases Option.some.inj h

theorem OrderProposalRung.moveTo_ok (h : rung.moveTo evidence now = .ok written) :
    rung.state.Allows evidence.terminalState ∧ written.state = evidence.terminalState ∧
      written.filledQty = (evidence.filledQty <|> rung.filledQty) := by
  obtain ⟨hallows, h⟩ := raiseIf_bind_ok.mp h
  cases h
  exact ⟨not_not.mp hallows, rfl, rfl⟩

theorem OrderProposalRung.moveTo_of_allows (now : Instant)
    (h : rung.state.Allows evidence.terminalState) :
    ∃ written, rung.moveTo evidence now = .ok written :=
  ⟨_, raiseIf_bind_ok.mpr ⟨not_not.mpr h, rfl⟩⟩

theorem OrderProposalRung.takeEvidence_same (now : Instant)
    (hstate : rung.state = evidence.terminalState) :
    (rung.takeEvidence evidence now = .ok rung ∧
      ∃ f ∈ evidence.filledQty, ∃ q ∈ rung.filledQty, f ≤ q) ∨
    (rung.takeEvidence evidence now =
        .ok (rung.audited { updatedAt := now, filledQty := evidence.filledQty }) ∧
      ∀ f ∈ evidence.filledQty, ∀ q ∈ rung.filledQty, q < f) := by
  unfold takeEvidence
  rw [if_pos hstate]
  cases hnew : evidence.filledQty with
  | none => exact .inr ⟨by simp, by simp⟩
  | some f =>
    cases hold : rung.filledQty with
    | none => exact .inr ⟨by simp, by simp⟩
    | some q =>
      by_cases hle : f ≤ q
      · exact .inl ⟨by simp [hle], f, rfl, q, rfl, hle⟩
      · exact .inr ⟨by simp [hle], by simpa using hle⟩

namespace FillRun

variable {result : Except ProposalError OrderProposalRung}

theorem write_ok (h : run.write evidence now result = .ok next) :
    ∃ auto rung, run.auto.freezeOnFill run.group evidence.filledQty now = some auto ∧
      result = .ok rung ∧
      next = { run with rung, auto, applied := evidence :: run.applied } := by
  unfold write at h
  cases hauto : run.auto.freezeOnFill run.group evidence.filledQty now with
  | none =>
    rw [hauto] at h
    cases h
  | some auto =>
    rw [hauto] at h
    cases result with
    | error e => cases h
    | ok rung => exact ⟨auto, rung, rfl, rfl, (Except.ok.inj h).symm⟩

theorem write_of_ok (hauto : run.auto.freezeOnFill run.group evidence.filledQty now = some auto)
    (h : result = .ok rung) :
    run.write evidence now result =
      .ok { run with rung, auto, applied := evidence :: run.applied } := by
  unfold write
  rw [hauto, h]
  rfl

/-- A delivery leaves the rung that the service writes into the proposal. -/
theorem deliver_rung {rungIndex : ℤ} (hrung : run.group.getRung rungIndex = .ok run.rung)
    (h : run.deliver delivery = .ok next) :
    next = run ∨
      (run.serve rungIndex delivery).bind (·.getRung rungIndex) = .ok next.rung := by
  unfold deliver at h
  unfold serve
  split at h
  · unfold recordFillEvidence at h
    split_ifs at h with haccepts hterminal
    · exact .inl (Except.ok.inj h).symm
    · obtain ⟨auto, rung, -, htaken, rfl⟩ := write_ok h
      exact .inr ((OrderProposal.acceptEvidence_rung hrung hterminal).trans htaken)
    · exact .inl (Except.ok.inj h).symm
  · unfold recordFillEvidenceForRung at h
    split_ifs at h with hterminal hsame
    · exact .inl (Except.ok.inj h).symm
    · obtain ⟨auto, rung, -, hmoved, rfl⟩ := write_ok h
      exact .inr ((OrderProposal.acceptEvidenceForRung_rung hrung hterminal).trans hmoved)

theorem deliver_ok (h : run.deliver delivery = .ok next) :
    next = run ∨ ¬ run.rung.state.Terminal ∧ ∃ auto rung,
      run.auto.freezeOnFill run.group delivery.evidence.filledQty delivery.now = some auto ∧
      next = { run with rung, auto, applied := delivery.evidence :: run.applied } ∧
      (run.rung.moveTo delivery.evidence delivery.now = .ok rung ∨
        run.rung.state = delivery.evidence.terminalState ∧
        run.rung.takeEvidence delivery.evidence delivery.now = .ok rung) := by
  unfold deliver at h
  split at h
  · unfold recordFillEvidence at h
    split_ifs at h with haccepts hterminal
    · exact .inl (Except.ok.inj h).symm
    · obtain ⟨auto, rung, hauto, htaken, rfl⟩ := write_ok h
      refine .inr ⟨hterminal, auto, rung, hauto, rfl, ?_⟩
      by_cases hstate : run.rung.state = delivery.evidence.terminalState
      · exact .inr ⟨hstate, htaken⟩
      · left
        unfold OrderProposalRung.takeEvidence at htaken
        rwa [if_neg hstate] at htaken
    · exact .inl (Except.ok.inj h).symm
  · unfold recordFillEvidenceForRung at h
    split_ifs at h with hterminal hsame
    · exact .inl (Except.ok.inj h).symm
    · obtain ⟨auto, rung, hauto, hmoved, rfl⟩ := write_ok h
      exact .inr ⟨hterminal, auto, rung, hauto, rfl, .inl hmoved⟩

/-- The rung has ended, or is partially filled with as much as the evidence says, and the
evidence would not raise. -/
def Covers (run : FillRun) (evidence : FillEvidence) : Prop :=
  ¬ (run.auto = .sourceMalformed ∧ run.group.Freezes evidence.filledQty) ∧
    (run.rung.state.Terminal ∨ run.rung.state = .partiallyFilled ∧
      evidence.terminalState = .partiallyFilled ∧
      ∀ f ∈ evidence.filledQty, ∃ q ∈ run.rung.filledQty, f ≤ q)

/-- What has been applied stays applied. -/
def Kept (run : FillRun) : Prop := ∀ evidence ∈ run.applied, run.Covers evidence

theorem reportable_open {state : RungState} (hstate : state ∈
    [RungState.filled, .partiallyFilled, .cancelled, .expired]) :
    state.Terminal ∨ state = .partiallyFilled := by
  revert hstate
  cases state <;> decide

theorem Kept.after (h : run.Kept) (delivery : FillDelivery) : (run.after delivery).Kept := by
  unfold FillRun.after
  cases hdeliver : run.deliver delivery with
  | error e => exact h
  | ok next =>
    obtain rfl | ⟨hopen, auto, rung, hauto, rfl, hwritten⟩ := deliver_ok hdeliver
    · exact h
    have hfreeze : ∀ e : FillEvidence, ¬ (run.auto = .sourceMalformed ∧
        run.group.Freezes e.filledQty) → ¬ (auto = .sourceMalformed ∧
        run.group.Freezes e.filledQty) := fun e hgood hbad =>
      hgood ⟨AutoApproved.freezeOnFill_malformed hauto hbad.1, hbad.2⟩
    have hnew : ¬ (run.auto = .sourceMalformed ∧
        run.group.Freezes delivery.evidence.filledQty) := fun hbad => by
      rw [AutoApproved.freezeOnFill_eq_none_iff.mpr hbad] at hauto
      cases hauto
    -- An open rung that has taken evidence is partially filled, and only grows or ends.
    suffices hrung : (rung.state.Terminal ∨ rung.state = .partiallyFilled ∧
        delivery.evidence.terminalState = .partiallyFilled ∧
        ∀ f ∈ delivery.evidence.filledQty, ∃ q ∈ rung.filledQty, f ≤ q) ∧
        (run.rung.state = .partiallyFilled → rung.state.Terminal ∨
          rung.state = .partiallyFilled ∧
          ∀ q ∈ run.rung.filledQty, ∃ f ∈ rung.filledQty, q ≤ f) by
      intro e he
      obtain rfl | he := List.mem_cons.mp he
      · exact ⟨hfreeze _ hnew, hrung.1⟩
      · obtain ⟨hgood, hended | ⟨hstate, hevidence, hqty⟩⟩ := h e he
        · exact absurd hended hopen
        · refine ⟨hfreeze e hgood, ?_⟩
          obtain hended | ⟨hpart, hgrows⟩ := hrung.2 hstate
          · exact .inl hended
          · refine .inr ⟨hpart, hevidence, fun f hf => ?_⟩
            obtain ⟨q, hq, hle⟩ := hqty f hf
            obtain ⟨r, hr, hle'⟩ := hgrows q hq
            exact ⟨r, hr, hle.trans hle'⟩
    obtain hmoved | ⟨hstate, htaken⟩ := hwritten
    · obtain ⟨hallows, hstate, hqty⟩ := OrderProposalRung.moveTo_ok hmoved
      rw [hstate, hqty]
      refine ⟨?_, fun hpart => ?_⟩
      · obtain hended | hpart := reportable_open delivery.reportable
        · exact .inl hended
        · refine .inr ⟨hpart, hpart, fun f hf => ⟨f, ?_, le_rfl⟩⟩
          rw [Option.mem_def.mp hf]
          rfl
      · obtain hended | hsame := reportable_open delivery.reportable
        · exact .inl hended
        · rw [hpart, hsame] at hallows
          exact absurd hallows (by decide)
    · have hpart : delivery.evidence.terminalState = .partiallyFilled := by
        obtain hended | hpart := reportable_open delivery.reportable
        · exact absurd (hstate ▸ hended) hopen
        · exact hpart
      obtain ⟨hsame, f, hf, q, hq, hle⟩ | ⟨hgrown, hlt⟩ :=
        OrderProposalRung.takeEvidence_same delivery.now hstate
      · cases hsame.symm.trans htaken
        refine ⟨.inr ⟨hstate.trans hpart, hpart, fun g hg => ⟨q, hq, ?_⟩⟩, fun h =>
          .inr ⟨h, fun q hq => ⟨q, hq, le_rfl⟩⟩⟩
        obtain rfl := Option.mem_unique hf hg
        exact hle
      · cases hgrown.symm.trans htaken
        refine ⟨.inr ⟨hstate.trans hpart, hpart, fun f hf => ⟨f, ?_, le_rfl⟩⟩, fun h =>
          .inr ⟨h, fun q hq => ?_⟩⟩
        · change (delivery.evidence.filledQty <|> run.rung.filledQty) = some f
          rw [Option.mem_def.mp hf]
          rfl
        · change ∃ f, (delivery.evidence.filledQty <|> run.rung.filledQty) = some f ∧ q ≤ f
          cases hf : delivery.evidence.filledQty with
          | none => exact ⟨q, hq, le_rfl⟩
          | some f => exact ⟨f, rfl, (hlt f hf q hq).le⟩

theorem after_of_ok (h : run.deliver delivery = .ok next) : run.after delivery = next := by
  unfold FillRun.after
  rw [h]

theorem after_of_error {e : ProposalError} (h : run.deliver delivery = .error e) :
    run.after delivery = run := by
  unfold FillRun.after
  rw [h]

theorem keeps_of_unchanged (hrung : (run.after delivery).rung = run.rung) :
    delivery.Keeps run ↔
      (delivery.evidence ∈ run.applied → ∃ next, run.deliver delivery = .ok next) := by
  constructor
  · exact fun h happlied => (h.repeats happlied).1
  · intro h
    refine ⟨fun q hq => ⟨q, ?_, le_rfl⟩, fun _ => hrung, fun happlied => ⟨h happlied, hrung⟩⟩
    rwa [hrung]

theorem keeps_of_moved (hkept : run.Kept) {auto : AutoApproved}
    (hallows : run.rung.state.Allows delivery.evidence.terminalState)
    (hafter : run.after delivery =
      { run with rung, auto, applied := delivery.evidence :: run.applied })
    (hmoved : run.rung.moveTo delivery.evidence delivery.now = .ok rung) :
    delivery.evidence ∉ run.applied ∧ (delivery.Keeps run ↔
      ∀ q ∈ run.rung.filledQty, ∀ f ∈ delivery.evidence.filledQty, q ≤ f) := by
  have hnew : delivery.evidence ∉ run.applied := by
    intro happlied
    obtain ⟨-, hended | ⟨hstate, hevidence, -⟩⟩ := hkept _ happlied
    · exact hended.not_allows hallows
    · rw [hstate, hevidence] at hallows
      exact absurd hallows (by decide)
  have hqty := (OrderProposalRung.moveTo_ok hmoved).2.2
  refine ⟨hnew, fun h q hq f hf => ?_, fun h => ⟨fun q hq => ?_, ?_, fun happlied => ?_⟩⟩
  · obtain ⟨g, hg, hle⟩ := h.grows q hq
    rw [hafter] at hg
    dsimp only at hg
    rw [hqty, Option.mem_def.mp hf] at hg
    cases hg
    exact hle
  · rw [hafter]
    dsimp only
    rw [hqty]
    cases hf : delivery.evidence.filledQty with
    | none => exact ⟨q, hq, le_rfl⟩
    | some f => exact ⟨f, rfl, h q hq f hf⟩
  · exact fun hended => absurd hallows hended.not_allows
  · exact absurd happlied hnew

theorem keeps_of_raised {e : ProposalError} (h : run.deliver delivery = .error e) :
    delivery.Keeps run ↔ delivery.evidence ∉ run.applied := by
  rw [keeps_of_unchanged (by rw [after_of_error h])]
  refine imp_congr_right fun _ => iff_of_false ?_ id
  rintro ⟨next, hnext⟩
  rw [h] at hnext
  cases hnext

theorem not_allows_self (state : RungState) : ¬ state.Allows state := by
  cases state <;> decide

theorem orderly_of_moves (hmoves : delivery.Moves run)
    (hnew : delivery.evidence ∉ run.applied) :
    delivery.Orderly run ↔
      ∀ q ∈ run.rung.filledQty, ∀ f ∈ delivery.evidence.filledQty, q ≤ f :=
  ⟨fun h => h.moves hmoves, fun h => ⟨fun _ => h, fun happlied => absurd happlied hnew⟩⟩

theorem Kept.freezes (hkept : run.Kept) (happlied : evidence ∈ run.applied) :
    run.auto.freezeOnFill run.group evidence.filledQty now ≠ none :=
  fun hnone => (hkept _ happlied).1 (AutoApproved.freezeOnFill_eq_none_iff.mp hnone)

theorem moveTo_of_not_allows (h : ¬ rung.state.Allows evidence.terminalState) :
    rung.moveTo evidence now =
      .error (.invalidStateTransition rung.state evidence.terminalState) := by
  unfold OrderProposalRung.moveTo raiseIf
  rw [if_pos h]
  rfl

theorem write_of_error
    (h : run.auto.freezeOnFill run.group evidence.filledQty now = none ∨ ∃ e, result = .error e) :
    ∃ e, run.write evidence now result = .error e := by
  unfold write
  cases hauto : run.auto.freezeOnFill run.group evidence.filledQty now with
  | none => exact ⟨_, rfl⟩
  | some auto =>
    obtain hnone | ⟨e, rfl⟩ := h
    · rw [hauto] at hnone
      cases hnone
    · exact ⟨e, rfl⟩

theorem keeps_iff_orderly_move (hkept : run.Kept)
    (hreached : delivery.entry = .recordFillEvidence →
      run.rung.state ∈ RungState.evidenceAccepting)
    (hother : delivery.evidence ∈ run.applied → ¬ run.rung.state.Terminal →
      delivery.entry = .recordFillEvidence →
      run.rung.state ≠ delivery.evidence.terminalState) (hopen : ¬ run.rung.state.Terminal)
    (hdeliver : run.deliver delivery = run.write delivery.evidence delivery.now
      (run.rung.moveTo delivery.evidence delivery.now)) :
    delivery.Keeps run ↔ delivery.Orderly run := by
  by_cases hmoves : delivery.Moves run
  · obtain ⟨hallows, -, hfreeze⟩ := id hmoves
    obtain ⟨auto, hauto⟩ := Option.ne_none_iff_exists'.mp hfreeze
    obtain ⟨rung, hmoved⟩ := OrderProposalRung.moveTo_of_allows delivery.now hallows
    rw [write_of_ok hauto hmoved] at hdeliver
    obtain ⟨hnew, hkeeps⟩ := keeps_of_moved hkept hallows (after_of_ok hdeliver) hmoved
    rw [hkeeps, orderly_of_moves hmoves hnew]
  · have hraises : run.auto.freezeOnFill run.group delivery.evidence.filledQty delivery.now = none ∨
        ∃ e, run.rung.moveTo delivery.evidence delivery.now = .error e := by
      by_contra hnone
      push Not at hnone
      refine hmoves ⟨?_, hreached, hnone.1⟩
      by_contra hallows
      exact hnone.2 _ (moveTo_of_not_allows hallows)
    obtain ⟨e, he⟩ := write_of_error hraises
    rw [keeps_of_raised (hdeliver.trans he)]
    refine ⟨fun hnew => ⟨fun h => absurd h hmoves, fun happlied => absurd happlied hnew⟩, ?_⟩
    intro horderly happlied
    have hrepeats := horderly.repeats happlied
    obtain ⟨-, hended | ⟨hstate, hevidence, -⟩⟩ := hkept _ happlied
    · exact hopen hended
    · split at hrepeats
      next hentry => exact hother happlied hopen hentry (hstate.trans hevidence.symm)
      · exact hopen hrepeats.1

theorem keeps_iff_orderly_same (hkept : run.Kept) (hentry : delivery.entry = .recordFillEvidence)
    (hopen : ¬ run.rung.state.Terminal)
    (hstate : run.rung.state = delivery.evidence.terminalState)
    (hdeliver : run.deliver delivery = run.write delivery.evidence delivery.now
      (run.rung.takeEvidence delivery.evidence delivery.now)) :
    delivery.Keeps run ↔ delivery.Orderly run := by
  have hmoves : ¬ delivery.Moves run := fun h =>
    not_allows_self _ (hstate ▸ h.1 : run.rung.state.Allows run.rung.state)
  cases hauto : run.auto.freezeOnFill run.group delivery.evidence.filledQty delivery.now with
  | none =>
    obtain ⟨e, he⟩ := write_of_error (.inl hauto)
    rw [keeps_of_raised (hdeliver.trans he)]
    have hnew : delivery.evidence ∉ run.applied := fun happlied => hkept.freezes happlied hauto
    exact iff_of_true hnew ⟨fun h => absurd h hmoves, fun happlied => absurd happlied hnew⟩
  | some auto =>
    obtain ⟨hsame, f, hf, -⟩ | ⟨hgrown, hlt⟩ :=
      OrderProposalRung.takeEvidence_same delivery.now hstate
    · rw [write_of_ok hauto hsame] at hdeliver
      rw [keeps_of_unchanged (by rw [after_of_ok hdeliver])]
      refine iff_of_true (fun _ => ⟨_, hdeliver⟩) ⟨fun h => absurd h hmoves, fun _ => ?_⟩
      rw [hentry]
      intro _ hnone
      rw [Option.mem_def, hnone] at hf
      cases hf
    · rw [write_of_ok hauto hgrown] at hdeliver
      have hrung := congrArg FillRun.rung (after_of_ok hdeliver)
      constructor
      · refine fun h => ⟨fun hm => absurd hm hmoves, fun happlied => ?_⟩
        rw [hentry]
        intro _ _
        exact congrArg OrderProposalRung.updatedAt (hrung.symm.trans (h.repeats happlied).2)
      · refine fun h => ⟨fun q hq => ?_, fun hended => absurd hended hopen, fun happlied =>
          ⟨⟨_, hdeliver⟩, ?_⟩⟩
        · rw [hrung]
          change ∃ f, (delivery.evidence.filledQty <|> run.rung.filledQty) = some f ∧ q ≤ f
          cases hf : delivery.evidence.filledQty with
          | none => exact ⟨q, hq, le_rfl⟩
          | some f => exact ⟨f, rfl, (hlt f hf q hq).le⟩
        · have hrepeats := h.repeats happlied
          rw [hentry] at hrepeats
          obtain ⟨-, hended | ⟨hpart, -, hqty⟩⟩ := hkept _ happlied
          · exact absurd hended hopen
          have hnone : delivery.evidence.filledQty = none := by
            rw [Option.eq_none_iff_forall_not_mem]
            intro f hf
            obtain ⟨q, hq, hle⟩ := hqty f hf
            exact absurd hle (not_le.mpr (hlt f hf q hq))
          rw [hrung, hnone, hrepeats hpart hnone]
          rfl

theorem keeps_iff_orderly (hkept : run.Kept) (delivery : FillDelivery) :
    delivery.Keeps run ↔ delivery.Orderly run := by
  cases hentry : delivery.entry with
  | recordFillEvidence =>
    have hdeliver : run.deliver delivery =
        run.recordFillEvidence delivery.evidence delivery.now := by
      unfold deliver
      rw [hentry]
    unfold recordFillEvidence at hdeliver
    by_cases haccepts : run.rung.state ∈ RungState.evidenceAccepting
    · have hopen : ¬ run.rung.state.Terminal := by
        revert haccepts
        cases run.rung.state <;> decide
      rw [if_neg (not_not.mpr haccepts), if_neg hopen] at hdeliver
      by_cases hstate : run.rung.state = delivery.evidence.terminalState
      · exact keeps_iff_orderly_same hkept hentry hopen hstate hdeliver
      · unfold OrderProposalRung.takeEvidence at hdeliver
        rw [if_neg hstate] at hdeliver
        exact keeps_iff_orderly_move hkept (fun _ => haccepts) (fun _ _ _ => hstate) hopen
          hdeliver
    · rw [if_pos haccepts] at hdeliver
      rw [keeps_of_unchanged (by rw [after_of_ok hdeliver])]
      refine iff_of_true (fun _ => ⟨run, hdeliver⟩) ⟨?_, fun _ => ?_⟩
      · exact fun hmoves => absurd (hmoves.2.1 hentry) haccepts
      · rw [hentry]
        exact fun hpart => absurd (hpart ▸ by decide) haccepts
  | recordFillEvidenceForRung =>
    have hdeliver : run.deliver delivery =
        run.recordFillEvidenceForRung delivery.evidence delivery.now := by
      unfold deliver
      rw [hentry]
    unfold recordFillEvidenceForRung at hdeliver
    by_cases hended : run.rung.state.Terminal
    · rw [if_pos hended] at hdeliver
      have hmoves : ¬ delivery.Moves run := fun h => hended.not_allows h.1
      split_ifs at hdeliver with hsame
      · rw [keeps_of_unchanged (by rw [after_of_ok hdeliver])]
        refine iff_of_true (fun _ => ⟨run, hdeliver⟩) ⟨fun h => absurd h hmoves, fun _ => ?_⟩
        rw [hentry]
        exact ⟨hended, hsame⟩
      · rw [keeps_of_raised hdeliver]
        refine ⟨fun hnew => ⟨fun h => absurd h hmoves, fun h => absurd h hnew⟩, ?_⟩
        intro horderly happlied
        have hrepeats := horderly.repeats happlied
        rw [hentry] at hrepeats
        exact hsame hrepeats.2
    · rw [if_neg hended] at hdeliver
      exact keeps_iff_orderly_move hkept (by simp [hentry]) (by simp [hentry]) hended hdeliver

end FillRun

end Steps

def FillRun.step (run : FillRun) (delivery : FillDelivery) : Option FillRun :=
  some (run.after delivery)

/-- The deliveries keep what the rung has taken exactly when each of them is orderly. -/
theorem deliveries_keep_iff (group : OrderProposal) (rung : OrderProposalRung)
    (auto : AutoApproved) (deliveries : List FillDelivery) :
    Transition.Along FillRun.step (fun run delivery => delivery.Keeps run)
        { group, rung, auto } deliveries ↔
      Transition.Along FillRun.step (fun run delivery => delivery.Orderly run)
        { group, rung, auto } deliveries := by
  have hstart : FillRun.Kept { group, rung, auto } := List.forall_mem_nil _
  generalize FillRun.mk group rung auto [] = run at hstart
  induction deliveries generalizing run with
  | nil => exact Iff.rfl
  | cons delivery rest ih =>
    refine and_congr (FillRun.keeps_iff_orderly hstart delivery) (forall_congr' fun next => ?_)
    refine imp_congr_right fun hnext => ih next ?_
    cases hnext
    exact hstart.after delivery

def restingRun : FillRun where
  group := TossWorld.restingBuy
  rung :=
    { rungIndex := 0
      side := "buy"
      quantity := 2
      limitPrice := none
      notional := none
      state := .resting
      brokerOrderId := some "order"
      updatedAt := 0 }
  auto := .absent

def partialFill : FillDelivery where
  entry := .recordFillEvidenceForRung
  evidence := TossWorld.fillOf .partiallyFilled 1
  now := 0
  reportable := by decide

/-- A partial fill that comes again through the second function raises. -/
theorem partial_fill_twice :
    ¬ Transition.Along FillRun.step (fun run delivery => delivery.Keeps run)
      { group := restingRun.group, rung := restingRun.rung, auto := restingRun.auto }
      [partialFill, partialFill] := by
  rintro ⟨-, hrest⟩
  obtain ⟨hsecond, -⟩ := hrest _ rfl
  have hraises : (restingRun.after partialFill).deliver partialFill =
      .error (.invalidStateTransition .partiallyFilled .partiallyFilled) := by rfl
  obtain ⟨⟨next, hnext⟩, -⟩ := hsecond.repeats (by decide +kernel)
  cases hraises.symm.trans hnext

end KAssetTrader.Proposals
