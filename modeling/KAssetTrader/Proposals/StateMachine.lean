import KAssetTrader.Library.Checked

/-!
The states of a rung, the graph of their transitions, and the state of a
proposal as it is rolled up from its rungs. The graph is a table; a rung state is
terminal when the table has nothing after it.
-/

namespace KAssetTrader.Proposals

inductive RungState where
  | draft
  | pendingApproval
  | revalidating
  | needsReconfirm
  | approved
  | submitting
  | acked
  | resting
  | partiallyFilled
  | unverified
  | filled
  | cancelled
  | expired
  | rejected
  | voided
  | voidedLocalStale
  | superseded
  deriving DecidableEq

namespace RungState

def value : RungState → String
  | draft => "draft"
  | pendingApproval => "pending_approval"
  | revalidating => "revalidating"
  | needsReconfirm => "needs_reconfirm"
  | approved => "approved"
  | submitting => "submitting"
  | acked => "acked"
  | resting => "resting"
  | partiallyFilled => "partially_filled"
  | unverified => "unverified"
  | filled => "filled"
  | cancelled => "cancelled"
  | expired => "expired"
  | rejected => "rejected"
  | voided => "voided"
  | voidedLocalStale => "voided_local_stale"
  | superseded => "superseded"

def allowed : RungState → List RungState
  | draft => [pendingApproval, expired, voided]
  | pendingApproval => [revalidating, rejected, expired, voided, voidedLocalStale, superseded]
  | revalidating =>
    [approved, needsReconfirm, pendingApproval, rejected, superseded, expired, voided]
  | needsReconfirm => [pendingApproval, rejected, superseded, expired, voided]
  | approved => [submitting, pendingApproval, superseded, expired, voided]
  | submitting => [pendingApproval, acked, resting, rejected, unverified, cancelled]
  | acked => [filled, partiallyFilled, cancelled, unverified]
  | resting => [filled, partiallyFilled, cancelled, expired, unverified]
  | partiallyFilled => [filled, cancelled, expired, unverified]
  | unverified => [filled, partiallyFilled, cancelled, expired, rejected, voidedLocalStale]
  | filled | cancelled | expired | rejected | voided | voidedLocalStale | superseded => []

/-- `is_terminal`. -/
def Terminal (state : RungState) : Prop := state.allowed = []

instance (state : RungState) : Decidable state.Terminal :=
  inferInstanceAs (Decidable (_ = _))

/-- `_VOIDABLE_RUNG_STATES`. -/
def voidable : List RungState := [draft, pendingApproval, revalidating, needsReconfirm, approved]

/-- `EVIDENCE_ACCEPTING_RUNG_STATES`. -/
def evidenceAccepting : List RungState := [acked, resting, partiallyFilled, unverified]

/-- `_LOSS_CUT_CONFIRMABLE_RUNG_STATES` and `_SUPERSEDE_INVALIDATABLE_RUNG_STATES`. -/
def confirmable : List RungState := [pendingApproval, needsReconfirm]

/-- The states in which a rung is not known to have reached the broker and
cannot any more. -/
def localTerminal : List RungState := [expired, rejected, voided, voidedLocalStale, superseded]

def Allows (current new : RungState) : Prop := new ∈ current.allowed

instance (current new : RungState) : Decidable (current.Allows new) :=
  inferInstanceAs (Decidable (_ ∈ _))

variable {state : RungState}

theorem allows_expired (h : state ∈ voidable) : state.Allows expired := by
  revert h
  cases state <;> decide

theorem allows_voided (h : state ∈ voidable) : state.Allows voided := by
  revert h
  cases state <;> decide

theorem allows_superseded (h : state ∈ confirmable) :
    state.Allows superseded := by
  revert h
  cases state <;> decide

theorem Terminal.not_allows {state new : RungState} (h : state.Terminal) : ¬ state.Allows new := by
  unfold Allows
  rw [h]
  exact List.not_mem_nil

end RungState

/-- The states of a proposal, coarser than those of its rungs. -/
inductive GroupState where
  | proposed
  | approved
  | partiallySubmitted
  | submitted
  | terminal
  | rejected
  | expired
  | voided
  | superseded
  deriving DecidableEq

namespace GroupState

def value : GroupState → String
  | proposed => "proposed"
  | approved => "approved"
  | partiallySubmitted => "partially_submitted"
  | submitted => "submitted"
  | terminal => "terminal"
  | rejected => "rejected"
  | expired => "expired"
  | voided => "voided"
  | superseded => "superseded"

/-- `_APPROVAL_TERMINAL_GROUP_STATES`. -/
def approvalTerminal : List GroupState := [terminal, rejected, expired, voided, superseded]

end GroupState

open RungState in
/-- `_recompute_group_state`, of the set of the rungs' states. -/
def recomputeGroupState (states : List RungState) : GroupState :=
  let subset (bag : List RungState) := states.all (fun s => decide (s ∈ bag))
  let meets (bag : List RungState) := states.any (fun s => decide (s ∈ bag))
  let only (s : RungState) := decide (s ∈ states) && subset [s]
  if subset [filled, cancelled, expired, rejected, voided, voidedLocalStale, superseded] then
    if only expired then .expired
    else if only rejected then .rejected
    else if subset [voided, voidedLocalStale] then .voided
    else .terminal
  else if meets [acked, resting, partiallyFilled, filled, submitting] then
    if meets [pendingApproval, revalidating, approved, needsReconfirm] then .partiallySubmitted
    else .submitted
  else if meets [approved] then .approved
  else .proposed

theorem recompute_approvalTerminal_iff (states : List RungState) :
    recomputeGroupState states ∈ GroupState.approvalTerminal ↔ ∀ s ∈ states, s.Terminal := by
  have hbag (s : RungState) : s ∈ [RungState.filled, .cancelled, .expired, .rejected, .voided,
      .voidedLocalStale, .superseded] ↔ s.Terminal := by
    cases s <;> decide
  simp only [recomputeGroupState, List.all_eq_true, decide_eq_true_eq, hbag]
  constructor
  · intro h
    by_contra hnot
    rw [if_neg hnot] at h
    split_ifs at h <;> exact absurd h (by decide)
  · intro h
    rw [if_pos h]
    split_ifs <;> decide

theorem recompute_ne_superseded (states : List RungState) :
    recomputeGroupState states ≠ .superseded := by
  unfold recomputeGroupState
  dsimp only
  split_ifs <;> decide

end KAssetTrader.Proposals
