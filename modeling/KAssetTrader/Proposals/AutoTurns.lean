import KAssetTrader.Proposals.AutoDispatch
import KAssetTrader.Proposals.Moves

/-!
What a turn of the automatic lane leaves of a proposal. However it ends, the terms stay and the
rungs keep their indices, quantities and prices; when it reaches the submit of an order, the
classifier has charged that order. The rules for turns are those of a program with exits: a
condition on the row of every exit, and one on the value of a turn that goes through.
-/

namespace KAssetTrader.Proposals

open OrderProposal Checked

def OrderProposalRung.order (rung : OrderProposalRung) : ℤ × Decimal × Option Decimal :=
  (rung.rungIndex, rung.quantity, rung.limitPrice)

namespace OrderProposal

def UniqueIndices (group : OrderProposal) : Prop := (group.rungs.map (·.rungIndex)).Nodup

structure KeepsOrders (before after : OrderProposal) : Prop where
  terms : after.terms = before.terms
  orders : after.rungs.map (·.order) = before.rungs.map (·.order)

variable {group before middle after : OrderProposal} {rung moved : OrderProposalRung}
  {rungIndex : ℤ} {now : Instant}

theorem KeepsOrders.refl (group : OrderProposal) : group.KeepsOrders group := ⟨rfl, rfl⟩

theorem KeepsOrders.trans (h : before.KeepsOrders middle) (h' : middle.KeepsOrders after) :
    before.KeepsOrders after :=
  ⟨h'.terms.trans h.terms, h'.orders.trans h.orders⟩

section

variable (h : before.KeepsOrders after)
include h

theorem KeepsOrders.indices (hindices : before.UniqueIndices) :
    after.UniqueIndices := by
  have hmap : ∀ group : OrderProposal,
      group.rungs.map (·.rungIndex) = (group.rungs.map (·.order)).map Prod.fst := by
    intro group
    rw [List.map_map]
    rfl
  unfold UniqueIndices at hindices ⊢
  rw [hmap, h.orders, ← hmap]
  exact hindices

theorem KeepsOrders.symm : after.KeepsOrders before :=
  ⟨h.terms.symm, h.orders.symm⟩

theorem KeepsOrders.capKey : after.capKey = before.capKey := by
  unfold OrderProposal.capKey
  rw [h.terms]

theorem KeepsOrders.exists_rung (hmem : rung ∈ before.rungs) :
    ∃ moved ∈ after.rungs, moved.order = rung.order := by
  have horder : rung.order ∈ after.rungs.map (·.order) := by
    rw [h.orders]
    exact List.mem_map_of_mem hmem
  exact List.mem_map.mp horder

theorem KeepsOrders.map_eq {α : Type*} {f g : OrderProposalRung → α}
    (hf : ∀ r r', r'.order = r.order → g r' = f r) :
    after.rungs.map g = before.rungs.map f := by
  have hrungs : List.Forall₂ (fun r' r : OrderProposalRung => r'.order = r.order)
      after.rungs before.rungs := by
    have heq := h.orders
    rw [← List.forall₂_eq_eq_eq, List.forall₂_map_left_iff, List.forall₂_map_right_iff] at heq
    exact heq
  rw [← List.forall₂_eq_eq_eq, List.forall₂_map_left_iff, List.forall₂_map_right_iff]
  exact hrungs.imp fun _ _ horder => hf _ _ horder

end

theorem keepsOrders_putRung (hindices : group.UniqueIndices) (hmem : rung ∈ group.rungs)
    (horder : moved.order = rung.order) : group.KeepsOrders (group.putRung moved) := by
  refine ⟨rfl, ?_⟩
  unfold putRung
  rw [List.map_map]
  apply List.map_congr_left
  intro r hr
  rw [Function.comp_apply]
  split
  next hsame =>
    have hindex : moved.rungIndex = rung.rungIndex := congrArg Prod.fst horder
    have heq : r = rung :=
      List.inj_on_of_nodup_map hindices hr hmem (hsame.trans hindex)
    rw [horder, heq]
  · rfl

theorem KeepsOrders.of_rungs (h : before.KeepsOrders middle) (hterms : after.terms = middle.terms)
    (hrungs : after.rungs = middle.rungs) : before.KeepsOrders after :=
  ⟨hterms.trans h.terms, by rw [hrungs, h.orders]⟩

variable {newState : RungState} {audit : RungAudit}

variable (hindices : group.UniqueIndices)
include hindices

theorem transitionLockedRung_orders (hmem : rung ∈ group.rungs)
    (h : group.transitionLockedRung rung newState audit = .ok after) :
    group.KeepsOrders after := by
  obtain ⟨-, h⟩ := raiseIf_bind_ok.mp h
  cases h
  have hput := keepsOrders_putRung hindices hmem
    (show ((rung.setState newState audit.updatedAt).audited audit).order = rung.order from rfl)
  exact hput.of_rungs rfl rfl

theorem transitionRung_orders (h : group.transitionRung rungIndex newState audit = .ok after) :
    group.KeepsOrders after := by
  obtain ⟨rung, hrung, h⟩ := bind_ok_iff.mp h
  exact transitionLockedRung_orders hindices (getRung_ok hrung).1 h

theorem markNeedsReconfirm_orders (h : group.markNeedsReconfirm rungIndex now = .ok after) :
    group.KeepsOrders after := by
  obtain ⟨rung, hrung, h⟩ := bind_ok_iff.mp h
  exact transitionLockedRung_orders hindices (getRung_ok hrung).1 h

theorem expireRungIfNeeded_orders {expired : Bool}
    (h : group.expireRungIfNeeded rungIndex now = .ok (after, expired)) :
    group.KeepsOrders after := by
  obtain ⟨rung, hrung, h⟩ := bind_ok_iff.mp h
  have hmem := (getRung_ok hrung).1
  split at h
  · dsimp only at h
    split at h
    · cases h
      exact .refl group
    · obtain ⟨-, h⟩ := raiseIf_bind_ok.mp h
      have hput := keepsOrders_putRung hindices hmem
        (show (rung.setState .expired now).order = rung.order from rfl)
      split at h
      · cases h
        exact hput.of_rungs rfl rfl
      · cases h
        exact hput.of_rungs rfl rfl
  · cases h
    exact .refl group

theorem restoreRungAfterPreSendBlock_orders {expired : Bool}
    (h : group.restoreRungAfterPreSendBlock rungIndex now expired = .ok after) :
    group.KeepsOrders after := by
  obtain ⟨rung, hrung, h⟩ := bind_ok_iff.mp h
  obtain ⟨restored, hrestored, h⟩ := bind_ok_iff.mp h
  have hkeeps : group.KeepsOrders restored := by
    split at hrestored
    · exact transitionLockedRung_orders hindices (getRung_ok hrung).1 hrestored
    · cases hrestored
      exact .refl group
  split at h
  · obtain ⟨⟨next, flag⟩, hexpire, hnext⟩ := bind_ok_iff.mp h
    cases hnext
    exact hkeeps.trans (expireRungIfNeeded_orders (hkeeps.indices hindices) hexpire)
  · cases h
    exact hkeeps

theorem expireMutableRungsIfNeeded_orders (h : group.expireMutableRungsIfNeeded now = .ok after) :
    group.KeepsOrders after := by
  unfold expireMutableRungsIfNeeded at h
  split at h
  · cases h
    exact .refl group
  · refine foldlM_invariant (P := fun g => group.KeepsOrders g) ?_ (.refl group) h
    intro g rung _ g' hkeeps hstep
    obtain ⟨⟨next, expired⟩, hexpire, hnext⟩ := bind_ok_iff.mp hstep
    cases hnext
    exact hkeeps.trans (expireRungIfNeeded_orders (hkeeps.indices hindices) hexpire)

end OrderProposal

section Rules

variable {α β : Type} {group : OrderProposal} {P : α → Prop} {Q : β → Prop}

structure AutoTurn.Keeps (turn : AutoTurn α) (group : OrderProposal) (P : α → Prop) : Prop where
  exits : ∀ after result, turn = .error (.outcome after result) → group.KeepsOrders after
  returns : ∀ a, turn = .ok a → P a

namespace AutoTurn

theorem keeps_ok {a : α} (h : P a) : Keeps (.ok a) group P where
  exits _ _ hexit := by cases hexit
  returns _ hreturn := by
    cases hreturn
    exact h

variable {result : RungResult}

theorem keeps_throw {after : OrderProposal} (h : group.KeepsOrders after) :
    Keeps (.error (.outcome after result)) group P where
  exits _ _ hexit := by
    obtain ⟨rfl, -⟩ := AutoExit.outcome.inj (Except.error.inj hexit)
    exact h
  returns _ hreturn := by cases hreturn

theorem keeps_raised : Keeps (.error .raised) group P where
  exits _ _ hexit := by cases hexit
  returns _ hreturn := by cases hreturn

variable {turn : AutoTurn α} {call : Except ProposalError OrderProposal}

theorem Keeps.mono {P' : α → Prop} (h : turn.Keeps group P) (hP : ∀ a, P a → P' a) :
    turn.Keeps group P' :=
  ⟨h.exits, fun a hreturn => hP a (h.returns a hreturn)⟩

theorem Keeps.bind {next : α → AutoTurn β} (h : turn.Keeps group P)
    (hnext : ∀ a, P a → (next a).Keeps group Q) : (turn >>= next).Keeps group Q := by
  cases turn with
  | ok a => exact hnext a (h.returns a rfl)
  | error exit =>
    cases exit with
    | outcome after result => exact keeps_throw (h.exits after result rfl)
    | raised => exact keeps_raised

theorem keeps_callService {call : Except ProposalError α} (h : ∀ a, call = .ok a → P a) :
    (callService call).Keeps group P := by
  cases call with
  | ok a => exact keeps_ok (h a rfl)
  | error error => exact keeps_raised

variable (h : ∀ after, call = .ok after → group.KeepsOrders after)
include h

theorem keeps_exitWith :
    (exitWith (α := α) call result).Keeps group P := by
  apply (keeps_callService h).bind
  intro after hafter
  exact keeps_throw hafter

theorem keeps_leaveIf {condition : Prop} [Decidable condition] :
    (leaveIf condition call result).Keeps group fun _ => True := by
  unfold leaveIf
  split
  · exact keeps_exitWith h
  · exact keeps_ok trivial

end AutoTurn

end Rules

open AutoTurn

variable {group current : OrderProposal} {rungIndex : ℤ} {now : Instant} {answers : AutoAnswers}
  {preview : Preview}

variable {newState : RungState} {audit : RungAudit} {clock : Instant}

section

variable (h : group.KeepsOrders current) (hindices : group.UniqueIndices)
include h hindices

theorem keeps_transition (after : OrderProposal)
    (hcall : current.transitionRung rungIndex newState audit = .ok after) :
    group.KeepsOrders after :=
  h.trans (transitionRung_orders (h.indices hindices) hcall)

theorem keeps_callTransition :
    (callService (current.transitionRung rungIndex newState audit)).Keeps group fun after =>
      group.KeepsOrders after :=
  keeps_callService (keeps_transition h hindices)

theorem keeps_convergeWindowBlock (window : ApprovalWindowDecision) (after : OrderProposal)
    (hcall : current.convergeWindowBlock rungIndex window = .ok after) :
    group.KeepsOrders after :=
  h.trans (restoreRungAfterPreSendBlock_orders (h.indices hindices) hcall)

theorem keeps_markNeedsReconfirm (after : OrderProposal)
    (hcall : current.markNeedsReconfirm rungIndex now = .ok after) : group.KeepsOrders after :=
  h.trans (markNeedsReconfirm_orders (h.indices hindices) hcall)

theorem keeps_preMutationWindowGate (window : ApprovalWindowDecision) :
    (current.preMutationWindowGate rungIndex window).Keeps group fun _ => True := by
  exact keeps_leaveIf (keeps_convergeWindowBlock h hindices window)

theorem keeps_preSubmitLifecycleGate {nonce : Option String} :
    (current.preSubmitLifecycleGate rungIndex nonce clock).Keeps group fun _ => True := by
  unfold preSubmitLifecycleGate assertDispatchStillAuthorized
  split
  · exact keeps_ok trivial
  next burnt error hrefused =>
    have hburnt : group.KeepsOrders burnt := by
      split at hrefused
      · cases hrefused
        exact h.of_rungs rfl rfl
      · obtain ⟨-, herror⟩ := Prod.mk.inj hrefused
        cases herror
    split
    next reopened hreopen => exact keeps_throw (keeps_transition hburnt hindices _ hreopen)
    · exact keeps_throw hburnt
    · exact keeps_raised

end

/-- The end of a turn that reaches the submit. With a confirmed answer the order is recorded as
submitted; a refused one has not been sent, and is recorded as an error. -/
structure SubmitEnd.Follows (ended : SubmitEnd) (group : OrderProposal)
    (answer : SubmitAnswer) : Prop where
  orders : group.KeepsOrders ended.group
  confirmed : answer.Confirmed → ended.result ∈ [RungResult.submittedAcked, .submittedResting]
  refused : answer.Refused → ended.sent = false ∧ ended.result = .error

theorem keeps_classifySubmit (h : group.KeepsOrders current) (hindices : group.UniqueIndices)
    {response : SubmitResponse} :
    (classifySubmit answers now current rungIndex preview response).Keeps group fun ended =>
      ended.Follows group (.answered response) := by
  unfold classifySubmit
  dsimp only
  split
  next hfailed =>
    apply (keeps_callTransition h hindices).bind
    intro after hafter
    apply keeps_ok
    refine ⟨hafter, ?_, fun _ => ⟨rfl, rfl⟩⟩
    rintro ⟨hsuccess, -⟩
    rw [hfailed] at hsuccess
    cases hsuccess
  next hnotFailed =>
    have hrefused : ¬ SubmitAnswer.Refused (.answered response) := hnotFailed
    split
    · split
      · apply (keeps_callTransition h hindices).bind
        intro after hafter
        refine keeps_ok ⟨hafter, fun _ => ?_, fun hrefuse => absurd hrefuse hrefused⟩
        exact List.mem_cons_self
      · apply (keeps_callTransition h hindices).bind
        intro after hafter
        refine keeps_ok ⟨hafter, fun _ => ?_, fun hrefuse => absurd hrefuse hrefused⟩
        exact List.mem_cons_of_mem _ List.mem_cons_self
    next hambiguous =>
      apply (keeps_callTransition h hindices).bind
      intro after hafter
      apply keeps_ok
      refine ⟨hafter, ?_, fun hrefuse => absurd hrefuse hrefused⟩
      rintro ⟨hsuccess, hid, hstatus⟩
      obtain ⟨id, hid⟩ := Option.ne_none_iff_exists'.mp hid
      obtain ⟨status, hstatus⟩ := Option.ne_none_iff_exists'.mp hstatus
      exact absurd hstatus (hambiguous id status hsuccess hid)

theorem keeps_submitRung (h : group.KeepsOrders current) (hindices : group.UniqueIndices)
    {onBlock : ApprovalWindowDecision → Except ProposalError OrderProposal}
    (hblock : ∀ window after, onBlock window = .ok after → group.KeepsOrders after) :
    (submitRung answers now current rungIndex preview onBlock).Keeps group fun ended =>
      ended.Follows group answers.submit := by
  unfold submitRung
  cases answers.submit with
  | blocked window => exact keeps_exitWith (hblock window)
  | raised error =>
    apply (keeps_callTransition h hindices).bind
    intro after hafter
    exact keeps_ok ⟨hafter, fun hconfirmed => False.elim hconfirmed,
      fun hrefused => False.elim hrefused⟩
  | answered response => exact keeps_classifySubmit h hindices

variable {gate : OrderProposal → OrderProposalRung → Preview → Except String CapCharge}
  {rung : OrderProposalRung}

theorem keeps_applyEligibilityGate (h : group.KeepsOrders current)
    (hindices : group.UniqueIndices) :
    (applyEligibilityGate now (gate group) current rung preview).Keeps group fun charge =>
      gate group rung preview = .ok charge := by
  unfold applyEligibilityGate
  split
  next charge hcharge => exact keeps_ok hcharge
  · exact keeps_exitWith (keeps_transition h hindices)

structure TurnSound (gate : OrderProposalRung → Preview → Except String CapCharge)
    (answers : AutoAnswers) (group : OrderProposal) (rung : OrderProposalRung)
    (charge : CapCharge) (ended : SubmitEnd) : Prop where
  follows : ended.Follows group answers.submit
  charged : ∃ preview ∈ answers.preview, gate rung preview = .ok charge

theorem keeps_refusePreview (h : group.KeepsOrders current) (hindices : group.UniqueIndices)
    (after : OrderProposal) (hcall : current.refusePreview rungIndex preview now clock = .ok after)
    :
    group.KeepsOrders after := by
  obtain ⟨reopened, hreopen, hcall⟩ := bind_ok_iff.mp hcall
  have hreopened := keeps_transition h hindices _ hreopen
  split at hcall
  · cases hcall
    exact hreopened.of_rungs rfl rfl
  · cases hcall
    exact hreopened

theorem keeps_revalidatePlaceRung (hindices : group.UniqueIndices) :
    (revalidatePlaceRung answers now gate group rung).Keeps group fun turn =>
      TurnSound (gate group) answers group rung turn.1 turn.2 := by
  unfold revalidatePlaceRung
  apply (keeps_preMutationWindowGate (.refl group) hindices _).bind
  intro _ _
  apply (keeps_callTransition (.refl group) hindices).bind
  intro revalidating hrevalidating
  split
  · exact keeps_exitWith (keeps_transition hrevalidating hindices)
  next preview hpreview =>
    apply (keeps_leaveIf (keeps_refusePreview hrevalidating hindices)).bind
    intro _ _
    apply (keeps_leaveIf (keeps_transition hrevalidating hindices)).bind
    intro _ _
    apply (keeps_leaveIf (keeps_markNeedsReconfirm hrevalidating hindices)).bind
    intro _ _
    apply (keeps_applyEligibilityGate hrevalidating hindices).bind
    intro charge hcharge
    apply (keeps_preMutationWindowGate hrevalidating hindices _).bind
    intro _ _
    apply (keeps_leaveIf (keeps_markNeedsReconfirm hrevalidating hindices)).bind
    intro _ _
    apply (keeps_preMutationWindowGate hrevalidating hindices _).bind
    intro _ _
    apply (keeps_preSubmitLifecycleGate hrevalidating hindices).bind
    intro _ _
    apply (keeps_callTransition hrevalidating hindices).bind
    intro approved happroved
    apply (keeps_callTransition happroved hindices).bind
    intro submitting hsubmitting
    apply (keeps_submitRung hsubmitting hindices
      (keeps_convergeWindowBlock hsubmitting hindices)).bind
    intro ended hended
    exact keeps_ok ⟨hended, preview, hpreview, hcharge⟩

theorem keeps_validateTargetAction (hindices : group.UniqueIndices) :
    (validateTargetAction answers now group rungIndex).Keeps group fun after =>
      group.KeepsOrders after := by
  unfold validateTargetAction
  apply (keeps_callTransition (.refl group) hindices).bind
  intro revalidating hrevalidating
  split
  · exact keeps_exitWith (keeps_transition hrevalidating hindices)
  · exact keeps_exitWith (keeps_transition hrevalidating hindices)
  · exact keeps_exitWith (keeps_transition hrevalidating hindices)
  · exact keeps_exitWith (keeps_transition hrevalidating hindices)
  · exact keeps_ok hrevalidating

theorem keeps_cancelAndConfirmTarget (h : group.KeepsOrders current)
    (hindices : group.UniqueIndices) :
    (cancelAndConfirmTarget answers now current rungIndex).Keeps group fun _ => True := by
  unfold cancelAndConfirmTarget
  split
  · exact keeps_exitWith (keeps_transition h hindices)
  · split
    · exact keeps_exitWith (keeps_convergeWindowBlock h hindices _)
    · exact keeps_exitWith (keeps_transition h hindices)
    · exact keeps_exitWith (keeps_transition h hindices)
    · exact keeps_ok trivial

theorem keeps_revalidateReplaceRung (hindices : group.UniqueIndices) :
    (revalidateReplaceRung answers now gate group rung).Keeps group fun turn =>
      TurnSound (gate group) answers group rung turn.1 turn.2 := by
  unfold revalidateReplaceRung
  apply (keeps_preMutationWindowGate (.refl group) hindices _).bind
  intro _ _
  apply (keeps_validateTargetAction hindices).bind
  intro revalidating hrevalidating
  apply (keeps_preMutationWindowGate hrevalidating hindices _).bind
  intro _ _
  split
  · exact keeps_exitWith (keeps_transition hrevalidating hindices)
  next preview hpreview =>
    apply (keeps_leaveIf (keeps_transition hrevalidating hindices)).bind
    intro _ _
    apply (keeps_leaveIf (keeps_markNeedsReconfirm hrevalidating hindices)).bind
    intro _ _
    apply (keeps_applyEligibilityGate hrevalidating hindices).bind
    intro charge hcharge
    apply (keeps_preMutationWindowGate hrevalidating hindices _).bind
    intro _ _
    split
    · exact keeps_exitWith (keeps_transition hrevalidating hindices)
    · exact keeps_exitWith (keeps_transition hrevalidating hindices)
    · apply (keeps_preMutationWindowGate hrevalidating hindices _).bind
      intro _ _
      apply (keeps_callTransition hrevalidating hindices).bind
      intro approved happroved
      apply (keeps_callTransition happroved hindices).bind
      intro submitting hsubmitting
      apply (keeps_cancelAndConfirmTarget hsubmitting hindices).bind
      intro targetId _
      have hblock : ∀ (window : ApprovalWindowDecision) after,
          submitting.recordCancelled rung.rungIndex targetId window.observedAt = .ok after →
          group.KeepsOrders after :=
        fun _ => keeps_transition hsubmitting hindices
      apply (keeps_leaveIf (hblock _)).bind
      intro _ _
      apply (keeps_submitRung hsubmitting hindices hblock).bind
      intro ended hended
      exact keeps_ok ⟨hended, preview, hpreview, hcharge⟩

theorem keeps_revalidateCancelRung (hindices : group.UniqueIndices) :
    (revalidateCancelRung answers now gate group rung).Keeps group fun turn =>
      group.KeepsOrders turn.2.group ∧ turn.2.sent = false := by
  unfold revalidateCancelRung
  apply (keeps_preMutationWindowGate (.refl group) hindices _).bind
  intro _ _
  apply (keeps_validateTargetAction hindices).bind
  intro revalidating hrevalidating
  apply (keeps_applyEligibilityGate hrevalidating hindices).bind
  intro charge _
  apply (keeps_preMutationWindowGate hrevalidating hindices _).bind
  intro _ _
  apply (keeps_callTransition hrevalidating hindices).bind
  intro approved happroved
  apply (keeps_callTransition happroved hindices).bind
  intro submitting hsubmitting
  apply (keeps_cancelAndConfirmTarget hsubmitting hindices).bind
  intro targetId _
  apply (keeps_callTransition hsubmitting hindices).bind
  intro cancelled hcancelled
  exact keeps_ok ⟨hcancelled, rfl⟩

inductive TurnEnds (gate : OrderProposalRung → Preview → Except String CapCharge)
    (answers : AutoAnswers) (group : OrderProposal) (rung : OrderProposalRung)
    (charge : CapCharge) (ended : SubmitEnd) : Prop
  | cancels (haction : group.terms.action = "cancel") (horders : group.KeepsOrders ended.group)
      (hsent : ended.sent = false)
  | orders (haction : group.terms.action ≠ "cancel")
      (hsound : TurnSound gate answers group rung charge ended)

theorem keeps_revalidateRung (hindices : group.UniqueIndices) :
    (revalidateRung answers now gate group rung).Keeps group fun turn =>
      TurnEnds (gate group) answers group rung turn.1 turn.2 := by
  unfold revalidateRung
  split
  next hreplace =>
    apply (keeps_revalidateReplaceRung hindices).mono
    intro turn hsound
    apply TurnEnds.orders _ hsound
    rw [hreplace]
    decide
  · split
    next hcancel =>
      apply (keeps_revalidateCancelRung hindices).mono
      rintro turn ⟨horders, hsent⟩
      exact .cancels hcancel horders hsent
    next hcancel =>
      apply (keeps_revalidatePlaceRung hindices).mono
      intro turn hsound
      exact .orders hcancel hsound

structure AutoRun.Sound (gate : OrderProposalRung → Preview → Except String CapCharge)
    (answers : AutoAnswers) (group : OrderProposal) (run : AutoRun) : Prop where
  stopped : ∀ after, run = .stopped after → group.KeepsOrders after
  turned : ∀ rung charge ended, run = .turned rung charge ended →
    group.pendingRungs = [rung] ∧ TurnEnds gate answers group rung charge ended

theorem revalidateAndSubmit_sound (hindices : group.UniqueIndices) :
    (revalidateAndSubmit answers now gate group).Sound (gate group) answers group := by
  have hstopped : ∀ after, group.KeepsOrders after →
      (AutoRun.stopped after).Sound (gate group) answers group := by
    intro after hafter
    constructor
    · rintro _ ⟨⟩
      exact hafter
    · intro rung charge ended h
      cases h
  have hraised : AutoRun.raised.Sound (gate group) answers group := by
    constructor
    · intro after h
      cases h
    · intro rung charge ended h
      cases h
  unfold revalidateAndSubmit
  split
  · exact hstopped group (.refl group)
  · split
    · dsimp only
      split
      next after hafter =>
        apply hstopped
        refine foldlM_invariant (P := fun g => group.KeepsOrders g) ?_ (.refl group) hafter
        intro g rung _ g' hkeeps hconverge
        split at hconverge
        · cases hexpire : g.expireRungIfNeeded rung.rungIndex (answers.window 0).observedAt with
          | error error =>
            rw [hexpire] at hconverge
            cases hconverge
          | ok result =>
            rw [hexpire] at hconverge
            cases hconverge
            exact hkeeps.trans (expireRungIfNeeded_orders
              (hkeeps.indices hindices) hexpire)
        · cases hconverge
          exact hkeeps
      · exact hraised
    · split
      next rung hpending =>
        have hturn : (revalidateRung answers now gate group rung).Keeps group fun turn =>
            TurnEnds (gate group) answers group rung turn.1 turn.2 :=
          keeps_revalidateRung hindices
        split
        next charge ended hok =>
          have hends := hturn.returns _ hok
          constructor
          · intro after h
            cases h
          · rintro _ _ _ ⟨⟩
            exact ⟨hpending, hends⟩
        next after result hexit => exact hstopped after (hturn.exits after result hexit)
        · exact hraised
      · exact hstopped group (.refl group)

end KAssetTrader.Proposals
