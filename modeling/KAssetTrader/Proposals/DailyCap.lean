import KAssetTrader.Proposals.AutoTurns

/-!
The daily cap of the automatic lane. While a dispatch holds the lock of an account and market,
nothing is charged to them, so the total that it read stays the total until its submit. What
was sent is covered by charges as long as every order that may have gone out is recorded: its
submit is answered with how the order stands, the transaction commits, and what was observed of
a marketable sell is kept. An order with an ambiguous answer is not charged, and the next one
goes out beyond the cap. Amounts and their sums have at most 28 digits, and are not rounded.
-/

namespace KAssetTrader.Proposals

open Transition

section Charges

variable {record : AutoApproval} {rung moved : OrderProposalRung}

theorem bookedNotional_of_order (h : moved.order = rung.order) :
    moved.bookedNotional = rung.bookedNotional := by
  obtain ⟨-, h⟩ := Prod.mk.inj h
  obtain ⟨hquantity, hlimit⟩ := Prod.mk.inj h
  unfold OrderProposalRung.bookedNotional
  rw [hquantity, hlimit]

theorem AutoApproval.chargedNotional_of_order (h : moved.order = rung.order) :
    record.chargedNotional moved = record.chargedNotional rung := by
  have hindex : moved.rungIndex = rung.rungIndex := (Prod.mk.inj h).1
  unfold chargedNotional
  rw [hindex, bookedNotional_of_order h]

theorem observed_of_safe {limits : PolicyLimits} {rungIndex : ℤ} {charge : CapCharge}
    {approvedAt evaluatedAt : Instant}
    (h : (capObservation limits rungIndex charge evaluatedAt).Safe) :
    capObservation limits rungIndex charge evaluatedAt ∈
      ({ approvedAt
         capObservations := buildAutoApproveCapObservations limits [(rungIndex, charge)]
           evaluatedAt } : AutoApproval).projectCapObservations := by
  unfold AutoApproval.projectCapObservations buildAutoApproveCapObservations
  simp [h]

variable {limits : PolicyLimits} {charge : CapCharge} {dailyNotional amount : Decimal}

theorem capObservation_of_fits (h : charge.Fits limits dailyNotional amount) (rungIndex : ℤ)
    (evaluatedAt : Instant) (lossGuard : String) (marketable : Bool) :
    capObservation limits rungIndex charge evaluatedAt =
      capObservation limits rungIndex
        ⟨amount, dailyNotional, dailyNotional + amount, lossGuard, marketable⟩ evaluatedAt := by
  unfold capObservation
  rw [h.notional, h.before, h.after]

end Charges

namespace CapWorld

variable {group after : OrderProposal} {proposalId : ProposalId}

section Totals

variable (w : CapWorld) (date : ℤ)

/-- As `sentBy`, with the rungs that are rejected. -/
def sentOrders (key : CapKey) (proposalId : ProposalId) (group : OrderProposal) : Decimal :=
  if group.capKey = key then
    (group.rungs.map fun rung => (w.sent proposalId rung.rungIndex).getD 0).sum
  else 0

def sentTotal (key : CapKey) : Decimal :=
  w.proposals.total fun proposalId group => w.sentOrders key proposalId group

structure Charges (date : ℤ) (group : OrderProposal) (record : AutoApproval) (rungIndex : ℤ)
    (amount : Decimal) : Prop where
  nonneg : 0 ≤ amount
  sends : group.terms.action ≠ "cancel"
  inDay : kstDate record.approvedAt = date
  charged : ∀ rung ∈ group.rungs, rung.rungIndex = rungIndex →
    amount ≤ record.chargedNotional rung

def Covered (proposalId : ProposalId) (rungIndex : ℤ) (amount : Decimal) : Prop :=
  ∃ group record, w.proposals.get? proposalId = some group ∧
    w.approvals proposalId = some record ∧ Charges date group record rungIndex amount

def AllCovered : Prop :=
  ∀ proposalId rungIndex amount, w.sent proposalId rungIndex = some amount →
    w.Covered date proposalId rungIndex amount

variable {w} {date} {key : CapKey}

theorem Covered.charges {rungIndex : ℤ} {amount : Decimal}
    (h : w.Covered date proposalId rungIndex amount)
    (hgroup : w.proposals.get? proposalId = some group) :
    ∃ record, w.approvals proposalId = some record ∧
      Charges date group record rungIndex amount := by
  obtain ⟨group', record, hgroup', hrecord, hcharges⟩ := h
  cases hgroup.symm.trans hgroup'
  exact ⟨record, hrecord, hcharges⟩

theorem sentOr_nonneg (h : w.AllCovered date) (proposalId : ProposalId) (rungIndex : ℤ) :
    0 ≤ (w.sent proposalId rungIndex).getD 0 := by
  cases hsent : w.sent proposalId rungIndex with
  | none => exact le_refl _
  | some amount =>
    obtain ⟨_, _, _, _, hcharges⟩ := h _ _ _ hsent
    exact hcharges.nonneg

theorem sentNotional_le (h : w.AllCovered date) : w.sentNotional key ≤ w.sentTotal key := by
  apply Dict.total_le_total
  intro proposalId group _
  unfold sentBy sentOrders
  split
  · apply List.sum_le_sum
    intro rung _
    split
    · exact sentOr_nonneg h _ _
    · exact le_refl _
  · exact le_refl _

theorem sentTotal_le (h : w.AllCovered date)
    (hbooked : ∀ proposalId group record, w.proposals.get? proposalId = some group →
      group.capKey = key → w.approvals proposalId = some record →
        kstDate record.approvedAt = date → ∀ rung ∈ group.rungs, 0 ≤ rung.bookedNotional) :
    w.sentTotal key ≤ w.autoApprovedNotional key date := by
  apply Dict.total_le_total
  intro proposalId group hgroup
  unfold sentOrders
  split
  next hkey =>
    have hcharged : ∀ record, w.approvals proposalId = some record →
        kstDate record.approvedAt = date → ∀ rung ∈ group.rungs,
          0 ≤ record.chargedNotional rung := by
      intro record hrecord hday rung hmem
      exact (hbooked _ _ _ hgroup hkey hrecord hday rung hmem).trans
        AutoApproval.booked_le_charged
    by_cases hnone : ∀ rung ∈ group.rungs, w.sent proposalId rung.rungIndex = none
    · have hzero : (group.rungs.map fun rung =>
          (w.sent proposalId rung.rungIndex).getD 0).sum = 0 := by
        apply List.sum_eq_zero
        intro amount hamount
        obtain ⟨rung, hmem, rfl⟩ := List.mem_map.mp hamount
        rw [hnone rung hmem]
        rfl
      rw [hzero]
      unfold chargedBy
      split
      · split
        next record hrecord =>
          split
          next hday =>
            apply List.sum_nonneg
            intro amount hamount
            obtain ⟨rung, hmem, rfl⟩ := List.mem_map.mp hamount
            exact hcharged record hrecord hday rung hmem
          · exact le_refl _
        · exact le_refl _
      · exact le_refl _
    · push Not at hnone
      obtain ⟨out, hout, hsent⟩ := hnone
      obtain ⟨amount, hamount⟩ := Option.ne_none_iff_exists'.mp hsent
      obtain ⟨record, hrecord, hcharges⟩ := (h _ _ _ hamount).charges hgroup
      unfold chargedBy
      rw [if_pos ⟨hkey, hcharges.sends⟩, hrecord]
      dsimp only
      rw [if_pos hcharges.inDay]
      apply List.sum_le_sum
      intro rung hmem
      cases hsent : w.sent proposalId rung.rungIndex with
      | none => exact hcharged record hrecord hcharges.inDay rung hmem
      | some amount =>
        obtain ⟨record', hrecord', hcharges'⟩ := (h _ _ _ hsent).charges hgroup
        cases hrecord.symm.trans hrecord'
        exact hcharges'.charged rung hmem rfl
  next hkey =>
    unfold chargedBy
    rw [if_neg fun hboth => hkey hboth.1]

end Totals

variable (policy : AutoApprovePolicy) {w : CapWorld} {i : ℕ}

section Kept

variable (date : ℤ)

structure Holds (w : CapWorld) (date : ℤ) (i : ℕ) (proposalId : ProposalId) (pendingCount : ℕ)
    (now : Instant) : Prop where
  lock : w.dispatchLocks.get? proposalId = some i
  inDay : kstDate now = date
  pending : ∀ group, w.proposals.get? proposalId = some group →
    group.pendingRungs.length = pendingCount

/-- What it knows that holds the lock of the cap too: the total it read is the total. -/
def HoldsCap (w : CapWorld) (date : ℤ) (i : ℕ) (proposalId : ProposalId)
    (dailyNotional : Decimal) : Prop :=
  ∀ group, w.proposals.get? proposalId = some group →
    w.capLocks.get? group.capKey = some i ∧
      dailyNotional = w.autoApprovedNotional group.capKey date

structure CapKept (w : CapWorld) : Prop where
  indices : ∀ proposalId group, w.proposals.get? proposalId = some group →
    group.UniqueIndices
  opened : ∀ i proposalId pendingCount now,
    w.workers i = .opened proposalId pendingCount now →
    w.Holds date i proposalId pendingCount now
  charged : ∀ i proposalId pendingCount now dailyNotional,
    w.workers i = .charged proposalId pendingCount now dailyNotional →
    w.Holds date i proposalId pendingCount now ∧ w.HoldsCap date i proposalId dailyNotional
  covered : w.AllCovered date
  bounded : ∀ key limits, policy.limitsForMarket key.market = some limits →
    w.sentTotal key ≤ limits.dailyCap

variable {policy} {date}

theorem CapKept.start (h : Start w) : CapKept policy date w := by
  obtain ⟨proposals, approvals, hindices, rfl⟩ := h
  refine ⟨hindices, ?_, ?_, ?_, ?_⟩
  · intro i proposalId pendingCount now h
    cases h
  · intro i proposalId pendingCount now dailyNotional h
    cases h
  · intro proposalId rungIndex amount h
    cases h
  · intro key limits _
    have hzero : ({ proposals, approvals } : CapWorld).sentTotal key = 0 := by
      apply List.sum_eq_zero
      intro amount hamount
      obtain ⟨entry, _, rfl⟩ := List.mem_map.mp hamount
      change sentOrders { proposals, approvals } key entry.1 entry.2 = 0
      unfold sentOrders
      split
      · apply List.sum_eq_zero
        intro amount hamount
        obtain ⟨rung, _, rfl⟩ := List.mem_map.mp hamount
        rfl
      · rfl
    rw [hzero]
    exact limits.dailyCap_pos.le

theorem chargedBy_of_orders (h : group.KeepsOrders after) (key : CapKey) :
    w.chargedBy key date proposalId after = w.chargedBy key date proposalId group := by
  unfold chargedBy
  rw [h.capKey, h.terms]
  have hsum : ∀ record : AutoApproval,
      after.rungs.map record.chargedNotional = group.rungs.map record.chargedNotional :=
    fun record => h.map_eq fun _ _ horder => AutoApproval.chargedNotional_of_order horder
  simp only [hsum]

theorem sentOrders_of_orders (h : group.KeepsOrders after) (key : CapKey) :
    w.sentOrders key proposalId after = w.sentOrders key proposalId group := by
  unfold sentOrders
  rw [h.capKey]
  have hsum : (after.rungs.map fun rung => (w.sent proposalId rung.rungIndex).getD 0) =
      group.rungs.map fun rung => (w.sent proposalId rung.rungIndex).getD 0 := by
    apply h.map_eq
    intro rung moved horder
    rw [show moved.rungIndex = rung.rungIndex from congrArg Prod.fst horder]
  rw [hsum]

section

variable (hgroup : w.proposals.get? proposalId = some group)
include hgroup

theorem total_putRow {f : ProposalId → OrderProposal → Decimal}
    (h : f proposalId after = f proposalId group) :
    (w.putRow proposalId after).proposals.total f = w.proposals.total f := by
  have hadd := w.proposals.total_set_add (f := f) (g := f) after hgroup fun _ _ _ => rfl
  rw [h] at hadd
  exact add_right_cancel hadd

theorem autoApprovedNotional_putRow (h : group.KeepsOrders after) (key : CapKey) :
    (w.putRow proposalId after).autoApprovedNotional key date =
      w.autoApprovedNotional key date :=
  total_putRow (f := fun id g => w.chargedBy key date id g) hgroup (chargedBy_of_orders h key)

theorem sentTotal_putRow (h : group.KeepsOrders after) (key : CapKey) :
    (w.putRow proposalId after).sentTotal key = w.sentTotal key :=
  total_putRow (f := fun id g => w.sentOrders key id g) hgroup (sentOrders_of_orders h key)

end

theorem CapKept.putRow (hkept : CapKept policy date w)
    (hgroup : w.proposals.get? proposalId = some group) (horders : group.KeepsOrders after)
    (hfree : w.dispatchLocks.get? proposalId = none) :
    CapKept policy date (w.putRow proposalId after) := by
  have hother : ∀ {i proposalId' pendingCount now},
      w.Holds date i proposalId' pendingCount now → ∀ group',
      (w.putRow proposalId after).proposals.get? proposalId' = some group' →
      w.proposals.get? proposalId' = some group' := by
    intro i proposalId' pendingCount now hholds group' hget
    rcases w.proposals.of_get?_set hget with ⟨rfl, _⟩ | ⟨_, hold⟩
    · rw [hholds.lock] at hfree
      cases hfree
    · exact hold
  have hholds : ∀ {i proposalId' pendingCount now},
      w.Holds date i proposalId' pendingCount now →
      (w.putRow proposalId after).Holds date i proposalId' pendingCount now := by
    intro i proposalId' pendingCount now h
    exact ⟨h.lock, h.inDay, fun group' hget => h.pending group' (hother h group' hget)⟩
  refine ⟨?_, ?_, ?_, ?_, ?_⟩
  · intro proposalId' group' hget
    rcases w.proposals.of_get?_set hget with ⟨-, rfl⟩ | ⟨-, hold⟩
    · exact horders.indices (hkept.indices _ _ hgroup)
    · exact hkept.indices _ _ hold
  · intro i proposalId' pendingCount now hphase
    exact hholds (hkept.opened i proposalId' pendingCount now hphase)
  · intro i proposalId' pendingCount now dailyNotional hphase
    obtain ⟨hlock, hcap⟩ := hkept.charged i proposalId' pendingCount now dailyNotional hphase
    refine ⟨hholds hlock, ?_⟩
    intro group' hget
    rw [autoApprovedNotional_putRow hgroup horders]
    exact hcap group' (hother hlock group' hget)
  · intro proposalId' rungIndex amount hsent
    obtain ⟨group', record, hget, hrecord, hcharges⟩ :=
      hkept.covered proposalId' rungIndex amount hsent
    by_cases heq : proposalId' = proposalId
    · subst heq
      cases hgroup.symm.trans hget
      refine ⟨after, record, ?_, hrecord, hcharges.nonneg, ?_, hcharges.inDay, ?_⟩
      · exact (w.proposals.get?_set).trans (if_pos rfl)
      · rw [horders.terms]
        exact hcharges.sends
      · intro moved hmoved hindex
        obtain ⟨rung, hmem, horder⟩ := horders.symm.exists_rung hmoved
        rw [← AutoApproval.chargedNotional_of_order horder]
        exact hcharges.charged rung hmem ((congrArg Prod.fst horder).trans hindex)
    · refine ⟨group', record, ?_, hrecord, hcharges⟩
      exact (w.proposals.get?_set).trans ((if_neg heq).trans hget)
  · intro key limits hlimits
    rw [sentTotal_putRow hgroup horders]
    exact hkept.bounded key limits hlimits

section Locks

theorem of_update {f : ℕ → DispatchPhase} {phase : DispatchPhase} {j : ℕ} {found : DispatchPhase}
    (h : Function.update f i phase j = found) : j = i ∧ phase = found ∨ j ≠ i ∧ f j = found := by
  by_cases hj : j = i
  · subst hj
    rw [Function.update_self] at h
    exact .inl ⟨rfl, h⟩
  · rw [Function.update_of_ne hj] at h
    exact .inr ⟨hj, h⟩

variable {κ : Type} {locks : Dict κ ℕ} {k : κ} {w' : CapWorld}

theorem get?_released [DecidableEq κ] {j : ℕ} (h : locks.get? k = some j) (hj : j ≠ i) :
    (locks.filter fun _ holder => holder ≠ i).get? k = some j := by
  apply (locks.get?_filter_eq_some).mpr
  exact ⟨h, decide_eq_true hj⟩

/-- A lock of the dispatch whose transaction ends is free. -/
theorem get?_freed [DecidableEq κ] (h : locks.get? k = some i) :
    (locks.filter fun _ holder => holder ≠ i).get? k = none := by
  apply Option.eq_none_iff_forall_ne_some.mpr
  intro j hj
  obtain ⟨hget, hne⟩ := (locks.get?_filter_eq_some).mp hj
  exact of_decide_eq_true hne (Option.some.inj (hget.symm.trans h))

variable (hkept : CapKept policy date w)
include hkept

theorem CapKept.released (i : ℕ) :
    CapKept policy date (w.released i) := by
  have hholds : ∀ {j proposalId pendingCount now}, j ≠ i →
      w.Holds date j proposalId pendingCount now →
      (w.released i).Holds date j proposalId pendingCount now := by
    intro j proposalId pendingCount now hj h
    exact ⟨get?_released h.lock hj, h.inDay, h.pending⟩
  refine ⟨hkept.indices, ?_, ?_, hkept.covered, hkept.bounded⟩
  · intro j proposalId pendingCount now hphase
    rcases of_update hphase with ⟨-, hidle⟩ | ⟨hj, hphase⟩
    · cases hidle
    · exact hholds hj (hkept.opened j proposalId pendingCount now hphase)
  · intro j proposalId pendingCount now dailyNotional hphase
    rcases of_update hphase with ⟨-, hidle⟩ | ⟨hj, hphase⟩
    · cases hidle
    · obtain ⟨hlock, hcap⟩ := hkept.charged j proposalId pendingCount now dailyNotional hphase
      refine ⟨hholds hj hlock, ?_⟩
      intro group hget
      obtain ⟨hkey, hdaily⟩ := hcap group hget
      exact ⟨get?_released hkey hj, hdaily⟩

theorem CapKept.openLock (hgroup : w.proposals.get? proposalId = some group)
    (hfree : w.dispatchLocks.get? proposalId = none) {now : Instant} (hday : kstDate now = date)
    (hidle : w.workers i = .idle) :
    CapKept policy date
      { w with
        dispatchLocks := w.dispatchLocks.set proposalId i
        workers := Function.update w.workers i
          (.opened proposalId group.pendingRungs.length now) } := by
  have hkeep : ∀ {j proposalId' pendingCount now'},
      w.Holds date j proposalId' pendingCount now' →
      (w.dispatchLocks.set proposalId i).get? proposalId' = some j := by
    intro j proposalId' pendingCount now' h
    rw [Dict.get?_set, if_neg]
    · exact h.lock
    · rintro rfl
      rw [h.lock] at hfree
      cases hfree
  refine ⟨hkept.indices, ?_, ?_, hkept.covered, hkept.bounded⟩
  · intro j proposalId' pendingCount now' hphase
    rcases of_update hphase with ⟨rfl, hnew⟩ | ⟨-, hphase⟩
    · cases hnew
      refine ⟨?_, hday, ?_⟩
      · exact (w.dispatchLocks.get?_set).trans (if_pos rfl)
      · intro group' hget
        cases hgroup.symm.trans hget
        rfl
    · have h := hkept.opened j proposalId' pendingCount now' hphase
      exact ⟨hkeep h, h.inDay, h.pending⟩
  · intro j proposalId' pendingCount now' dailyNotional hphase
    rcases of_update hphase with ⟨-, hnew⟩ | ⟨-, hphase⟩
    · cases hnew
    · obtain ⟨h, hcap⟩ := hkept.charged j proposalId' pendingCount now' dailyNotional hphase
      exact ⟨⟨hkeep h, h.inDay, h.pending⟩, hcap⟩

theorem CapKept.openDispatch {now : Instant} (hday : kstDate now = date)
    {window : ApprovalWindowDecision} {frozen : Bool} {thesis : Option String}
    (h : w.openDispatch policy i proposalId now window frozen thesis = some w') :
    CapKept policy date w' := by
  unfold CapWorld.openDispatch at h
  split at h
  next group hidle hfree hgroup =>
    split at h
    · split at h
      · obtain ⟨after, hafter, rfl⟩ := Option.map_eq_some_iff.mp h
        have hexpire := Checked.eq_ok_of_toOption hafter
        exact hkept.putRow hgroup (OrderProposal.expireMutableRungsIfNeeded_orders
          (hkept.indices _ _ hgroup) hexpire) hfree
      · cases h
        exact hkept
    · split at h
      · cases h
        exact hkept
      · cases h
        exact hkept.openLock hgroup hfree hday hidle
  · cases h

theorem CapKept.moveRung {rungIndex : ℤ} {newState : RungState} {audit : RungAudit}
    (h : w.moveRung proposalId rungIndex newState audit = some w') :
    CapKept policy date w' := by
  unfold CapWorld.moveRung at h
  split at h
  next group hfree hgroup =>
    obtain ⟨after, hafter, rfl⟩ := Option.map_eq_some_iff.mp h
    have hmoved := Checked.eq_ok_of_toOption hafter
    exact hkept.putRow hgroup (OrderProposal.transitionRung_orders
      (hkept.indices _ _ hgroup) hmoved) hfree
  · cases h

/-- A dispatch reads what the day has been charged, and holds it fixed. -/
theorem CapKept.readDaily (h : w.readDaily i = some w') :
    CapKept policy date w' := by
  unfold CapWorld.readDaily at h
  split at h
  next proposalId pendingCount now hopened =>
    have hholds := hkept.opened i proposalId pendingCount now hopened
    split at h
    next group hgroup =>
      split at h
      next hfree =>
        cases h
        refine ⟨hkept.indices, ?_, ?_, hkept.covered, hkept.bounded⟩
        · intro j proposalId' pendingCount' now' hphase
          rcases of_update hphase with ⟨-, hnew⟩ | ⟨-, hphase⟩
          · cases hnew
          · have h := hkept.opened j proposalId' pendingCount' now' hphase
            exact ⟨h.lock, h.inDay, h.pending⟩
        · intro j proposalId' pendingCount' now' dailyNotional hphase
          rcases of_update hphase with ⟨rfl, hnew⟩ | ⟨-, hphase⟩
          · cases hnew
            refine ⟨⟨hholds.lock, hholds.inDay, hholds.pending⟩, ?_⟩
            intro group' hget
            cases hgroup.symm.trans hget
            refine ⟨(w.capLocks.get?_set).trans (if_pos rfl), ?_⟩
            rw [hholds.inDay]
            rfl
          · obtain ⟨h, hcap⟩ :=
              hkept.charged j proposalId' pendingCount' now' dailyNotional hphase
            refine ⟨⟨h.lock, h.inDay, h.pending⟩, ?_⟩
            intro group' hget
            obtain ⟨hkey, hdaily⟩ := hcap group' hget
            refine ⟨?_, hdaily⟩
            rw [Dict.get?_set, if_neg]
            · exact hkey
            · intro heq
              rw [heq, hfree] at hkey
              cases hkey
      · cases h
    · cases h
  · cases h

end Locks

section Submits

variable {record : AutoApproval} {amount : Decimal}

theorem CapKept.approve (hkept : CapKept policy date w)
    (hgroup : w.proposals.get? proposalId = some group)
    (hfree : w.capLocks.get? group.capKey = none) (hday : kstDate record.approvedAt = date)
    (hcharged : ∀ rung ∈ group.rungs, ∀ amount, w.sent proposalId rung.rungIndex = some amount →
      amount ≤ record.chargedNotional rung) :
    CapKept policy date
      { w with approvals := Function.update w.approvals proposalId (some record) } := by
  refine ⟨hkept.indices, ?_, ?_, ?_, hkept.bounded⟩
  · intro i proposalId' pendingCount now hphase
    have h := hkept.opened i proposalId' pendingCount now hphase
    exact ⟨h.lock, h.inDay, h.pending⟩
  · intro i proposalId' pendingCount now dailyNotional hphase
    obtain ⟨h, hcap⟩ := hkept.charged i proposalId' pendingCount now dailyNotional hphase
    refine ⟨⟨h.lock, h.inDay, h.pending⟩, ?_⟩
    intro group' hget
    obtain ⟨hkey, hdaily⟩ := hcap group' hget
    refine ⟨hkey, hdaily.trans ?_⟩
    apply Dict.total_congr
    intro id g hg
    unfold chargedBy
    by_cases hid : id = proposalId
    · subst hid
      cases hgroup.symm.trans hg
      -- The key of the dispatch is locked, that of this proposal is not.
      have hne : group.capKey ≠ group'.capKey := by
        intro heq
        rw [heq, hkey] at hfree
        cases hfree
      rw [if_neg fun hboth => hne hboth.1, if_neg fun hboth => hne hboth.1]
    · dsimp only
      rw [Function.update_of_ne hid]
  · intro proposalId' rungIndex amount hsent
    obtain ⟨group', record', hget, hrecord, hcharges⟩ :=
      hkept.covered proposalId' rungIndex amount hsent
    by_cases hid : proposalId' = proposalId
    · subst hid
      cases hgroup.symm.trans hget
      refine ⟨group, record, hgroup, Function.update_self _ _ _, hcharges.nonneg,
        hcharges.sends, hday, ?_⟩
      intro rung hmem hindex
      exact hcharged rung hmem amount (hindex ▸ hsent)
    · exact ⟨group', record', hget, (Function.update_of_ne hid _ _).trans hrecord, hcharges⟩

theorem sum_sent_le {rungs : List OrderProposalRung} {sent : ℤ → Option Decimal} {rungIndex : ℤ}
    (hindices : (rungs.map (·.rungIndex)).Nodup) (hsent : ∀ index, 0 ≤ (sent index).getD 0)
    (hamount : 0 ≤ amount) :
    (rungs.map fun rung =>
        (Function.update sent rungIndex (some amount) rung.rungIndex).getD 0).sum ≤
      (rungs.map fun rung => (sent rung.rungIndex).getD 0).sum + amount := by
  induction rungs with
  | nil => simpa using hamount
  | cons rung rest ih =>
    obtain ⟨hnot, hrest⟩ := List.nodup_cons.mp hindices
    rw [List.map_cons, List.map_cons, List.sum_cons, List.sum_cons]
    by_cases hindex : rung.rungIndex = rungIndex
    · have hsame : (rest.map fun rung =>
          (Function.update sent rungIndex (some amount) rung.rungIndex).getD 0) =
          rest.map fun rung => (sent rung.rungIndex).getD 0 := by
        apply List.map_congr_left
        intro other hother
        rw [Function.update_of_ne]
        intro heq
        exact hnot (List.mem_map.mpr ⟨other, hother, heq.trans hindex.symm⟩)
      rw [hsame, hindex, Function.update_self, Option.getD_some]
      linarith [hsent rungIndex]
    · rw [Function.update_of_ne hindex]
      linarith [ih hrest]

def withSent (w : CapWorld) (proposalId : ProposalId) (rungIndex : ℤ) (amount : Decimal) :
    CapWorld :=
  { w with
    sent := Function.update w.sent proposalId
      (Function.update (w.sent proposalId) rungIndex (some amount)) }

/-- What is sent within the room of the cap and charged keeps the totals. -/
theorem CapKept.send (hkept : CapKept policy date w)
    (hgroup : w.proposals.get? proposalId = some group)
    (hrecord : w.approvals proposalId = some record) {rung : OrderProposalRung}
    (hcharges : Charges date group record rung.rungIndex amount)
    (hroom : ∀ limits, policy.limitsForMarket group.capKey.market = some limits → w.sentTotal
      group.capKey + amount ≤ limits.dailyCap) :
    CapKept policy date (w.withSent proposalId rung.rungIndex amount) := by
  have hrest : ∀ key id, id ≠ proposalId → ∀ g,
      (w.withSent proposalId rung.rungIndex amount).sentOrders key id g =
        w.sentOrders key id g := by
    intro key id hid g
    unfold sentOrders withSent
    dsimp only
    rw [Function.update_of_ne hid]
  refine ⟨hkept.indices, ?_, ?_, ?_, ?_⟩
  · intro i proposalId' pendingCount now hphase
    have h := hkept.opened i proposalId' pendingCount now hphase
    exact ⟨h.lock, h.inDay, h.pending⟩
  · intro i proposalId' pendingCount now dailyNotional hphase
    obtain ⟨h, hcap⟩ := hkept.charged i proposalId' pendingCount now dailyNotional hphase
    exact ⟨⟨h.lock, h.inDay, h.pending⟩, hcap⟩
  · intro proposalId' rungIndex amount' hsent
    change Function.update w.sent proposalId _ proposalId' rungIndex = some amount' at hsent
    by_cases hid : proposalId' = proposalId
    · subst hid
      rw [Function.update_self] at hsent
      by_cases hindex : rungIndex = rung.rungIndex
      · subst hindex
        rw [Function.update_self] at hsent
        cases hsent
        exact ⟨group, record, hgroup, hrecord, hcharges⟩
      · rw [Function.update_of_ne hindex] at hsent
        exact hkept.covered _ _ _ hsent
    · rw [Function.update_of_ne hid] at hsent
      exact hkept.covered _ _ _ hsent
  · intro key limits hlimits
    have hbefore := w.proposals.total_erase (fun id g => w.sentOrders key id g) hgroup
    have hafter := w.proposals.total_erase
      (fun id g => (w.withSent proposalId rung.rungIndex amount).sentOrders key id g) hgroup
    have hothers : (w.proposals.erase proposalId).total
        (fun id g => (w.withSent proposalId rung.rungIndex amount).sentOrders key id g) =
        (w.proposals.erase proposalId).total fun id g => w.sentOrders key id g := by
      apply Dict.total_congr
      intro id g hg
      exact hrest key id (w.proposals.of_get?_erase hg).1 g
    have hbound := hkept.bounded key limits hlimits
    change w.proposals.total
      (fun id g => (w.withSent proposalId rung.rungIndex amount).sentOrders key id g) ≤ _
    unfold sentTotal at hbound
    rw [hafter, hothers]
    rw [hbefore] at hbound
    by_cases hkey : group.capKey = key
    · have hroom := hroom limits (hkey ▸ hlimits)
      unfold sentTotal at hroom
      rw [hkey, hbefore] at hroom
      have hsum : (w.withSent proposalId rung.rungIndex amount).sentOrders key proposalId group ≤
          w.sentOrders key proposalId group + amount := by
        unfold sentOrders withSent
        dsimp only
        rw [if_pos hkey, if_pos hkey, Function.update_self]
        exact sum_sent_le (hkept.indices _ _ hgroup)
          (sentOr_nonneg hkept.covered proposalId) hcharges.nonneg
      linarith
    · have hzero : (w.withSent proposalId rung.rungIndex amount).sentOrders key proposalId group =
          w.sentOrders key proposalId group := by
        unfold sentOrders
        rw [if_neg hkey, if_neg hkey]
      rw [hzero]
      exact hbound

end Submits

end Kept

variable (date : ℤ)

/-- The submit of a proposal is charged for all that it can send. Either nothing goes out that
the broker takes; or the answer says how the order stands and the transaction commits, the
observation of a marketable sell is kept, an earlier record of the day is of no more than the
booked amounts, and no order approved on the day in the account and market is booked at a
negative amount. -/
def ChargesSubmit (w : CapWorld) (date : ℤ) (proposalId : ProposalId) (group : OrderProposal)
    (limits : PolicyLimits) (dailyNotional : Decimal) (input : SubmitInput) : Prop :=
  input.answers.submit.Refused ∨
    (input.answers.submit.Confirmed ∧ input.fails = false) ∧
      (∀ rung ∈ group.pendingRungs, ∀ preview ∈ input.answers.preview,
        rung.Marketable preview.currentPrice →
        (capObservation limits rung.rungIndex
          ⟨rung.executionNotional preview.currentPrice, dailyNotional,
            dailyNotional + rung.executionNotional preview.currentPrice, "net_profit_proven",
            true⟩ input.gateNow).Safe) ∧
      (∀ record ∈ w.approvals proposalId, kstDate record.approvedAt = date →
        ∀ rung ∈ group.rungs, record.chargedNotional rung ≤ rung.bookedNotional) ∧
      ∀ entry ∈ w.proposals.entries, entry.2.capKey = group.capKey →
        ∀ record ∈ w.approvals entry.1, kstDate record.approvedAt = date →
          ∀ rung ∈ entry.2.rungs, 0 ≤ rung.bookedNotional

instance (w : CapWorld) (proposalId : ProposalId) (group : OrderProposal)
    (limits : PolicyLimits) (dailyNotional : Decimal) (input : SubmitInput) :
    Decidable (w.ChargesSubmit date proposalId group limits dailyNotional input) :=
  inferInstanceAs (Decidable (_ ∨ _))

/-- The submits that place or replace are charged for all that they can send. -/
def MeetsCap (w : CapWorld) : CapAction → Prop
  | .submit i input =>
    match w.workers i with
    | .charged proposalId _ _ dailyNotional =>
      ∀ group ∈ w.proposals.get? proposalId,
        ∀ limits ∈ policy.limitsForMarket group.terms.market,
          group.terms.action ≠ "cancel" →
            w.ChargesSubmit date proposalId group limits dailyNotional input
    | .idle | .opened .. => True
  | .openDispatch .. | .readDaily _ | .abort _ | .move .. => True

instance (w : CapWorld) (action : CapAction) : Decidable (w.MeetsCap policy date action) :=
  match action with
  | .submit i input =>
    match h : w.workers i with
    | .charged proposalId _ _ dailyNotional =>
      decidable_of_iff (∀ group ∈ w.proposals.get? proposalId,
        ∀ limits ∈ policy.limitsForMarket group.terms.market,
          group.terms.action ≠ "cancel" →
            w.ChargesSubmit date proposalId group limits dailyNotional input)
        (by simp only [MeetsCap, h])
    | .idle => isTrue (by simp only [MeetsCap, h])
    | .opened .. => isTrue (by simp only [MeetsCap, h])
  | .openDispatch .. | .readDaily _ | .abort _ | .move .. => isTrue trivial

variable {policy} {date} {w : CapWorld} {limits : PolicyLimits} {input : SubmitInput}

variable {pendingCount : ℕ} {now gateNow : Instant} {rung : OrderProposalRung} {charge : CapCharge}
  {ended : SubmitEnd} {preview : Preview} {dailyNotional : Decimal} {action : String}

/-- A completed turn puts its row, and records the approval when its result is one of a
completed turn. -/
theorem CapKept.completed (hkept : CapKept policy date w)
    (hgroup : w.proposals.get? proposalId = some group)
    (hfree : w.dispatchLocks.get? proposalId = none) (hcap : w.capLocks.get? group.capKey = none)
    (hday : kstDate now = date) (horders : group.KeepsOrders ended.group)
    (hearlier : ∀ rung ∈ group.rungs, ∀ amount, w.sent proposalId rung.rungIndex = some amount →
      amount ≤ rung.bookedNotional ∨ ended.result ∉ autoCompletedResults ended.group.terms.action) :
    CapKept policy date
      (w.completed proposalId pendingCount now limits gateNow rung charge ended) := by
  unfold CapWorld.completed
  split
  next hcompleted =>
    have hrecorded : group.KeepsOrders ended.group.recordAutoApproval :=
      horders.of_rungs rfl rfl
    have hput := hkept.putRow hgroup hrecorded hfree
    refine hput.approve ((w.proposals.get?_set).trans (if_pos rfl)) ?_ hday ?_
    · rw [hrecorded.capKey]
      exact hcap
    · intro moved hmoved amount hsent
      obtain ⟨rung', hmem, horder⟩ := hrecorded.symm.exists_rung hmoved
      have hindex : rung'.rungIndex = moved.rungIndex := congrArg Prod.fst horder
      rcases hearlier rung' hmem amount (hindex ▸ hsent) with hle | hnot
      · rw [← AutoApproval.chargedNotional_of_order horder]
        exact hle.trans AutoApproval.booked_le_charged
      · exact absurd hcompleted.2 hnot
  · exact hkept.putRow hgroup horders hfree

theorem completed_sending {preview : Option Preview} :
    (w.sending proposalId rung preview).completed proposalId pendingCount now limits gateNow rung
        charge ended =
      (w.completed proposalId pendingCount now limits gateNow rung charge ended).withSent
        proposalId rung.rungIndex
        (rung.executionNotional (preview.bind (·.currentPrice))) := by
  unfold CapWorld.completed
  split
  · rfl
  · rfl

theorem sent_le_charged {approvedAt gateNow : Instant}
    (hfits : charge.Fits limits dailyNotional (rung.executionNotional preview.currentPrice))
    (hsafe : rung.Marketable preview.currentPrice → (capObservation limits rung.rungIndex
      ⟨rung.executionNotional preview.currentPrice, dailyNotional, dailyNotional +
      rung.executionNotional preview.currentPrice, "net_profit_proven", true⟩ gateNow).Safe) :
    rung.executionNotional preview.currentPrice ≤
      ({ approvedAt
         capObservations := buildAutoApproveCapObservations limits [(rung.rungIndex, charge)]
           gateNow } : AutoApproval).chargedNotional rung := by
  by_cases hmarketable : rung.Marketable preview.currentPrice
  · have hkeep := hsafe hmarketable
    rw [← capObservation_of_fits hfits] at hkeep
    rw [← hfits.notional]
    exact AutoApproval.observed_le_charged (observed_of_safe hkeep) rfl
  · rw [executionNotional_of_resting hmarketable]
    exact AutoApproval.booked_le_charged

theorem CapKept.completedSent (hkept : CapKept policy date w)
    (hgroup : w.proposals.get? proposalId = some group)
    (hlimits : policy.limitsForMarket group.terms.market = some limits) (hday : kstDate now = date)
    (hrung : rung ∈ group.rungs)
    (hcompleted : CapKept policy date (w.completed proposalId 1 now limits gateNow rung charge
      ended)) (horders : group.KeepsOrders ended.group) (haction : group.terms.action ≠ "cancel")
    (hresult : ended.result ∈ autoCompletedResults ended.group.terms.action)
    (hnonneg : 0 ≤ charge.notional)
    (hfits : charge.Fits limits dailyNotional (rung.executionNotional preview.currentPrice))
    (htotal : w.sentTotal group.capKey ≤ dailyNotional)
    (hsafe : rung.Marketable preview.currentPrice → (capObservation limits rung.rungIndex
      ⟨rung.executionNotional preview.currentPrice, dailyNotional, dailyNotional +
      rung.executionNotional preview.currentPrice, "net_profit_proven", true⟩ gateNow).Safe) :
    CapKept policy date
      ((w.sending proposalId rung (some preview)).completed proposalId 1 now limits gateNow rung
        charge ended) := by
  have hrecorded : group.KeepsOrders ended.group.recordAutoApproval := horders.of_rungs rfl rfl
  have hworld : w.completed proposalId 1 now limits gateNow rung charge ended =
      { w.putRow proposalId ended.group.recordAutoApproval with
        approvals := Function.update w.approvals proposalId (some
          { approvedAt := now
            capObservations :=
              buildAutoApproveCapObservations limits [(rung.rungIndex, charge)] gateNow }) } :=
    if_pos ⟨rfl, hresult⟩
  rw [completed_sending]
  rw [hworld] at hcompleted ⊢
  refine hcompleted.send ((w.proposals.get?_set).trans (if_pos rfl))
    (Function.update_self _ _ _) ⟨?_, ?_, hday, ?_⟩ ?_
  · exact hfits.notional ▸ hnonneg
  · rw [hrecorded.terms]
    exact haction
  · intro moved hmoved hindex
    obtain ⟨rung', hmem, horder⟩ := hrecorded.symm.exists_rung hmoved
    have heq : rung' = rung := List.inj_on_of_nodup_map (hkept.indices _ _ hgroup) hmem hrung
      ((congrArg Prod.fst horder).trans hindex)
    rw [heq] at horder
    rw [← AutoApproval.chargedNotional_of_order horder]
    exact sent_le_charged hfits hsafe
  · intro limits' hlimits'
    rw [hrecorded.capKey] at hlimits' ⊢
    cases hlimits.symm.trans hlimits'
    have hsame : (w.putRow proposalId ended.group.recordAutoApproval).sentTotal group.capKey =
        w.sentTotal group.capKey := sentTotal_putRow hgroup hrecorded group.capKey
    calc (w.putRow proposalId ended.group.recordAutoApproval).sentTotal group.capKey +
          rung.executionNotional preview.currentPrice
        = w.sentTotal group.capKey + rung.executionNotional preview.currentPrice := by rw [hsame]
      _ ≤ dailyNotional + rung.executionNotional preview.currentPrice :=
          add_le_add_left htotal _
      _ ≤ limits.dailyCap := hfits.within

theorem error_not_completed :
    RungResult.error ∉ autoCompletedResults action := by
  unfold autoCompletedResults
  split
  · decide
  · split
    · decide
    · decide

theorem autoCompletedResults_of_orders (h : action ∈ ["place", "replace"]) :
    autoCompletedResults action = [.submittedAcked, .submittedResting] := by
  apply if_pos
  simpa using h

variable {w' : CapWorld}

/-- The rest of a dispatch keeps the invariant when its charge is complete. -/
theorem CapKept.submit (hkept : CapKept policy date w)
    (hmeets : w.MeetsCap policy date (.submit i input)) (h : w.submit policy i input = some w') :
    CapKept policy date w' := by
  unfold CapWorld.submit at h
  split at h
  next proposalId pendingCount now dailyNotional hphase =>
    obtain ⟨hholds, hcap⟩ := hkept.charged i proposalId pendingCount now dailyNotional hphase
    obtain ⟨group, hgroup, h⟩ := Option.bind_eq_some_iff.mp h
    obtain ⟨limits, hlimits, h⟩ := Option.bind_eq_some_iff.mp h
    have hfree := get?_freed hholds.lock
    have hcapFree := get?_freed (hcap group hgroup).1
    have hreleased := hkept.released i
    have hcharges : group.terms.action ≠ "cancel" →
        w.ChargesSubmit date proposalId group limits dailyNotional input := by
      simp only [MeetsCap, hphase] at hmeets
      exact hmeets group hgroup limits hlimits
    have hsound : (revalidateAndSubmit input.answers input.gateNow
        (evaluateAutoApproveEligibility policy limits input.screening dailyNotional)
        group).Sound
        (evaluateAutoApproveEligibility policy limits input.screening dailyNotional group)
        input.answers group := revalidateAndSubmit_sound (hkept.indices _ _ hgroup)
    dsimp only at h
    split at h
    · cases h
      exact hreleased
    next after hstopped =>
      cases h
      split
      · exact hreleased
      · exact hreleased.putRow hgroup (hsound.stopped after hstopped) hfree
    next rung charge ended hturned =>
      obtain ⟨hpending, hends⟩ := hsound.turned rung charge ended hturned
      have hcount : pendingCount = 1 := by
        rw [← hholds.pending group hgroup, hpending]
        rfl
      cases h
      cases hends with
      | cancels haction horders hsent =>
        rw [hsent, if_neg Bool.false_ne_true]
        split
        · exact hreleased
        · refine hreleased.completed hgroup hfree hcapFree hholds.inDay horders ?_
          intro rung' _ amount hout
          obtain ⟨_, _, hcovered⟩ := (hkept.covered _ _ _ hout).charges hgroup
          exact absurd haction hcovered.sends
      | orders haction hsound =>
        obtain ⟨preview, hpreview, hcharge⟩ := hsound.charged
        obtain ⟨hsupported, hnonneg, hfits⟩ :=
          evaluateAutoApproveEligibility_ok haction hcharge
        have horders := hsound.follows.orders
        rcases hcharges haction with hrefused | ⟨⟨hconfirmed, hcommits⟩, hsafe, hrest⟩
        · obtain ⟨hsent, hresult⟩ := hsound.follows.refused hrefused
          rw [hsent, if_neg Bool.false_ne_true]
          split
          · exact hreleased
          · refine hreleased.completed hgroup hfree hcapFree hholds.inDay horders ?_
            intro _ _ _ _
            right
            rw [hresult]
            exact error_not_completed
        · obtain ⟨hearlier, hbooked⟩ := hrest
          have hresult : ended.result ∈ autoCompletedResults ended.group.terms.action := by
            rw [horders.terms, autoCompletedResults_of_orders hsupported]
            exact hsound.follows.confirmed hconfirmed
          have hrung : rung ∈ group.rungs := by
            have hmem : rung ∈ group.pendingRungs := by
              rw [hpending]
              exact List.mem_singleton_self rung
            exact (List.mem_filter.mp hmem).1
          have hcompleted : CapKept policy date ((w.released i).completed proposalId
              pendingCount now limits input.gateNow rung charge ended) := by
            refine hreleased.completed hgroup hfree hcapFree hholds.inDay horders ?_
            intro rung' hmem amount hout
            obtain ⟨record, hrecord, hcovered⟩ := (hkept.covered _ _ _ hout).charges hgroup
            left
            exact (hcovered.charged rung' hmem rfl).trans
              (hearlier record hrecord hcovered.inDay rung' hmem)
          rw [hcommits, if_neg Bool.false_ne_true]
          split
          · have htotal : (w.released i).sentTotal group.capKey ≤ dailyNotional := by
              rw [(hcap group hgroup).2]
              apply sentTotal_le hkept.covered
              intro id g record hg hkey hrecord hday
              exact hbooked (id, g) (w.proposals.get?_eq_some.mp hg) hkey record hrecord hday
            rw [hpreview]
            subst hcount
            exact hreleased.completedSent hgroup hlimits hholds.inDay hrung hcompleted
              horders haction hresult hnonneg hfits htotal
              (hsafe rung (hpending ▸ List.mem_singleton_self rung) preview hpreview)
          · exact hcompleted
  · cases h

theorem CapKept.abort (hkept : CapKept policy date w) (h : w.abort i = some w') :
    CapKept policy date w' := by
  unfold CapWorld.abort at h
  split at h
  · cases h
  · cases h
    exact hkept.released i

/-- A worker that meets the cap books no more than the cap has left. -/
theorem CapKept.step (hkept : CapKept policy date w) {action : CapAction}
    (hmeets : w.MeetsCap policy date action) (h : w.step policy date action = some w') :
    CapKept policy date w' := by
  cases action with
  | openDispatch i proposalId now window frozen thesis =>
    simp only [CapWorld.step] at h
    split at h
    next hday => exact hkept.openDispatch hday h
    · cases h
  | readDaily i => exact hkept.readDaily h
  | submit i input => exact hkept.submit hmeets h
  | abort i => exact hkept.abort h
  | move proposalId rungIndex newState audit => exact hkept.moveRung h

/-- On any date, as long as every submit is charged for all that it can send, what the automatic
lane has sent for an account and market, and is not rejected, stays within the daily cap. -/
theorem automatic_orders_stay_within_cap
    (h : ReachableVia Start (fun w => w.step policy date) (MeetsCap policy date) w)
    (key : CapKey) (hlimits : policy.limitsForMarket key.market = some limits) :
    w.sentNotional key ≤ limits.dailyCap := by
  have hkept : CapKept policy date w :=
    invariant (fun _ hstart => CapKept.start hstart)
      (fun _ _ _ hkept hmeets hstep => hkept.step hmeets hstep) h
  exact (sentNotional_le hkept.covered).trans (hkept.bounded key limits hlimits)

def twoBuys : CapWorld where
  proposals := (Dict.empty.set "a" (pendingBuy "a")).set "b" (pendingBuy "b")
  approvals := fun _ => none

theorem start_twoBuys : Start twoBuys := by
  refine ⟨_, _, ?_, rfl⟩
  intro proposalId group hget
  rcases (Dict.empty.set "a" (pendingBuy "a")).of_get?_set hget with ⟨-, rfl⟩ | ⟨-, hget⟩
  · decide
  · rcases (Dict.empty : Dict ProposalId OrderProposal).of_get?_set hget with
      ⟨-, rfl⟩ | ⟨-, hget⟩
    · decide
    · cases hget

def buyAnswered (answer : SubmitAnswer) : SubmitInput where
  answers :=
    { window := fun _ => ⟨.allow, seconds 1700050000, ""⟩
      preview := some restingPreview
      correlationId := "corr"
      clientOrderId := some "client"
      clock := seconds 1700050000
      submit := answer }
  screening := { thesis := some (CodePoints.ofString "value") }
  gateNow := seconds 1700050000

def dispatchOf (i : ℕ) (proposalId : ProposalId) (input : SubmitInput) : List CapAction :=
  [.openDispatch i proposalId (seconds 1700050000) ⟨.allow, seconds 1700050000, ""⟩ false
      (some "value"),
    .readDaily i, .submit i input]

def ackedAnswer : SubmitAnswer :=
  .answered { success := some true, status := some .acked, brokerOrderId := some "order" }

/-- Two purchases of 300 under a cap of a thousand. -/
theorem automatic_orders_stay_within_cap_two_buys :
    ∃ w, ReachableVia Start (fun w => w.step thousandADay 19676)
        (MeetsCap thousandADay 19676) w ∧
      w.sentNotional (pendingBuy "a").capKey = 600 ∧
      w.sentNotional (pendingBuy "a").capKey ≤ thousand.dailyCap := by
  have halong : Along (fun w => w.step thousandADay 19676) (MeetsCap thousandADay 19676) twoBuys
      (dispatchOf 0 "a" (buyAnswered ackedAnswer) ++
        dispatchOf 1 "b" (buyAnswered ackedAnswer)) := by
    decide +kernel
  obtain ⟨w, hrun, hends⟩ := (Option.any_eq_true _ _).mp
    (show ((run (fun w => w.step thousandADay 19676) twoBuys
      (dispatchOf 0 "a" (buyAnswered ackedAnswer) ++
        dispatchOf 1 "b" (buyAnswered ackedAnswer))).any fun w =>
        decide (w.sentNotional (pendingBuy "a").capKey = 600)) = true by
        decide +kernel)
  have hreach := (ReachableVia.start start_twoBuys).run halong hrun
  exact ⟨w, hreach, of_decide_eq_true hends,
    automatic_orders_stay_within_cap hreach (pendingBuy "a").capKey
      (show thousandADay.limitsForMarket (pendingBuy "a").capKey.market = some thousand from rfl)⟩

/-- The broker does not say how the first buy stands. It may have been placed, is not charged,
and the second one goes out: 1200 on a day with a cap of 1000. -/
theorem ambiguous_submit_not_charged :
    ∃ w, Reachable Start (fun w => w.step thousandADay 19676) w ∧
      thousandADay.limitsForMarket (pendingBuy "a").capKey.market = some thousand ∧
      thousand.dailyCap < w.sentNotional (pendingBuy "a").capKey := by
  obtain ⟨w, hrun, hends⟩ := (Option.any_eq_true _ _).mp
    (show ((run (fun w => w.step thousandADay 19676) twoBuys
      (dispatchOf 0 "a" (buyAnswered (.answered { success := none })) ++
        dispatchOf 1 "b" (buyAnswered ackedAnswer))).any fun w =>
        decide (thousand.dailyCap < w.sentNotional (pendingBuy "a").capKey)) = true by
        decide +kernel)
  exact ⟨w, reachable_of_run start_twoBuys hrun, rfl, of_decide_eq_true hends⟩

end CapWorld

end KAssetTrader.Proposals
