import KAssetTrader.Repricing.ClaimFinality
import KAssetTrader.Repricing.Tick

/-!
What the reads of the claim store say about the next claim. The reads judge a lease by the
clock, the insert by the stored states: a claim of another fire that has run out and that no
statement has expired stands in no read, and still in the way of the insert.
-/

namespace KAssetTrader.Repricing

open Transition

variable {rows : Claims} {nextId ownerToken : ℕ} {call : ClaimCall}

def ReadsFree (rows : Claims) (call : ClaimCall) : Prop :=
  stateFor rows call.eventUuid call.now = .unclaimed ∧ call.symbol ∉ activeSymbols rows call.now

/-- Reads and claims agree: a fire that the reads leave free is claimed, and a fire that is
claimed, consumed or quarantined is not. -/
structure ReadsAgree (rows : Claims) (nextId : ℕ) (call : ClaimCall) (ownerToken : ℕ) : Prop where
  free : ReadsFree rows call → ∃ t handle, tryClaim rows nextId call ownerToken = some (t, handle)
  taken : stateFor rows call.eventUuid call.now ≠ .unclaimed →
    tryClaim rows nextId call ownerToken = none

/-- No claim on the symbol has run out unexpired, but for the one that the call itself will
expire. -/
def NoneLapsed (rows : Claims) (call : ClaimCall) : Prop :=
  ∀ id row, rows.get? id = some row → row.lapsed call.now = true → row.symbol = call.symbol →
    (currentRow rows call.eventUuid).map (·.1) = some id

theorem claim_iff {generation : ℕ} {expired : Option ℕ} :
    (∃ t handle, (commitClaim rows nextId call generation expired ownerToken).toOption.map
      (·, call.handle generation ownerToken) = some (t, handle)) ↔
      ∀ id row, (ownView rows call expired).get? id = some row →
        row.conflicts (call.row generation ownerToken) = false := by
  constructor
  · rintro ⟨t, handle, h⟩
    obtain ⟨claimed, hclaimed, _⟩ := Option.map_eq_some_iff.mp h
    exact (insertRow_ok_iff.mp (Checked.eq_ok_of_toOption hclaimed)).1
  · intro hfree
    have hok : insertRow (ownView rows call expired) nextId (call.row generation ownerToken) =
        .ok _ := insertRow_ok_iff.mpr ⟨hfree, rfl⟩
    exact ⟨_, _, by rw [commitClaim, hok]; rfl⟩

theorem generation_le_of_currentRow {id j : ℕ} {latest row : ClaimRow} {event : EventUuid}
    (h : currentRow rows event = some (id, latest)) (hrow : rows.get? j = some row)
    (hevent : row.eventUuid = event) : row.generation ≤ latest.generation := by
  have hmem : (j, row) ∈ rows.entries.filter fun e => e.2.eventUuid = event :=
    List.mem_filter.mpr ⟨(rows.get?_eq_some).mp hrow, decide_eq_true hevent⟩
  exact List.le_of_mem_argmax (f := fun e : ℕ × ClaimRow => e.2.generation) hmem
    (Option.mem_def.mpr h)

theorem mem_activeSymbols {id : ℕ} {row : ClaimRow} {now : Instant}
    (hrow : rows.get? id = some row) (hstarted : row.state = .started)
    (hlive : now < row.leaseExpiresAt) : row.symbol ∈ activeSymbols rows now := by
  have hmem : row ∈ rows.values := List.mem_map.mpr ⟨_, (rows.get?_eq_some).mp hrow, rfl⟩
  exact List.mem_map.mpr ⟨row, List.mem_filter.mpr ⟨hmem, by simp [hstarted, hlive]⟩, rfl⟩

/-- The insert of a generation that is free, in a view where the current claim of the fire has
ended and the other claims stand as in the table. -/
theorem unblocked_iff {view : Claims} {generation : ℕ}
    (hfree : call.symbol ∉ activeSymbols rows call.now)
    (hsame : ∀ id, (currentRow rows call.eventUuid).map (·.1) ≠ some id →
      view.get? id = rows.get? id)
    (hended : ∀ id row, (currentRow rows call.eventUuid).map (·.1) = some id →
      view.get? id = some row → row.state ≠ .started)
    (hnext : ∀ id row, view.get? id = some row → row.eventUuid = call.eventUuid →
      row.generation ≠ generation) :
    (∀ id row, view.get? id = some row → row.conflicts (call.row generation ownerToken) = false) ↔
      NoneLapsed rows call := by
  constructor
  · intro h id row hrow hlapsed hsymbol
    by_contra hother
    rw [← hsame id hother] at hrow
    exact (conflicts_eq_false (h id row hrow)).2 ⟨(of_decide_eq_true hlapsed).1, hsymbol⟩
  · intro h id row hrow
    apply decide_eq_false
    rintro (⟨hevent, hgeneration⟩ | ⟨hstarted, hsymbol⟩)
    · exact hnext id row hrow hevent hgeneration
    · have hother : (currentRow rows call.eventUuid).map (·.1) ≠ some id :=
        fun hcurrent => hended id row hcurrent hrow hstarted
      rw [hsame id hother] at hrow
      refine hother (h id row hrow (decide_eq_true ⟨hstarted, ?_⟩) hsymbol)
      by_contra hlive
      have hactive := mem_activeSymbols hrow hstarted (not_le.mp hlive)
      rw [show row.symbol = call.symbol from hsymbol] at hactive
      exact hfree hactive

theorem tryClaim_free_iff (h : ReadsFree rows call) :
    (∃ t handle, tryClaim rows nextId call ownerToken = some (t, handle)) ↔
      NoneLapsed rows call := by
  obtain ⟨hstate, hfree⟩ := h
  unfold stateFor at hstate
  unfold tryClaim readLatest
  cases hcurrent : currentRow rows call.eventUuid with
  | none =>
    refine claim_iff.trans (unblocked_iff hfree (fun _ _ => rfl) ?_ ?_)
    · simp [hcurrent]
    · intro id row hrow hevent
      have hnil := List.argmax_eq_none.mp hcurrent
      have hmem : (id, row) ∈ rows.entries.filter fun e => e.2.eventUuid = call.eventUuid :=
        List.mem_filter.mpr ⟨(rows.get?_eq_some).mp hrow, decide_eq_true hevent⟩
      rw [hnil] at hmem
      cases hmem
  | some current =>
    obtain ⟨key, latest⟩ := current
    obtain ⟨hlatest, hevent⟩ := currentRow_mem hcurrent
    rw [hcurrent] at hstate
    have hbelow : ∀ id row, rows.get? id = some row → row.eventUuid = call.eventUuid →
        row.generation ≠ latest.generation + 1 := fun id row hrow hrowEvent =>
      Nat.ne_of_lt (Nat.lt_succ_of_le (generation_le_of_currentRow hcurrent hrow hrowEvent))
    cases hs : latest.state with
    | started =>
      have hlapsed : ¬ call.now < latest.leaseExpiresAt := by
        intro hlive
        simp [hs, hlive] at hstate
      have hview : ∀ id, (expireRow rows key call.now).get? id =
          if id = key then some (latest.expire call.now) else rows.get? id := by
        intro id
        split
        next heq => rw [heq, get?_expireRow hlatest hs]
        next hne => cases hrow : rows.get? id <;> simp [expireRow, Dict.get?_mapValues, hrow, hne]
      simp only [hs, if_true, if_neg hlapsed]
      refine claim_iff.trans (unblocked_iff hfree ?_ ?_ ?_)
      · intro id hne
        have hkey : id ≠ key := fun heq => hne (by rw [hcurrent, heq]; rfl)
        rw [ownView, hview, if_neg hkey]
      · intro id row hid hrow
        cases hcurrent ▸ hid
        rw [ownView, hview, if_pos rfl] at hrow
        cases hrow
        simp [ClaimRow.expire]
      · intro id row hrow hrowEvent
        obtain ⟨before, hbefore, rfl | hcloses⟩ :=
          expireRow_writes.before hrow
        · exact hbelow id _ hbefore hrowEvent
        · rw [hcloses.generation]
          exact hbelow id before hbefore (hcloses.eventUuid ▸ hrowEvent)
    | expiredUnprocessed =>
      simp only [hs, reduceCtorEq, if_false, ClaimLifecycle.nonReclaimable,
        Bool.false_eq_true]
      refine claim_iff.trans (unblocked_iff hfree (fun _ _ => rfl) ?_ hbelow)
      intro id row hid hrow
      cases hcurrent ▸ hid
      cases hlatest.symm.trans hrow
      simp [hs]
    | proposalCreated | rejectedWithReason | awaitingReconcile => simp [hs] at hstate

theorem tryClaim_taken (h : stateFor rows call.eventUuid call.now ≠ .unclaimed) :
    tryClaim rows nextId call ownerToken = none := by
  unfold stateFor at h
  unfold tryClaim readLatest
  cases hcurrent : currentRow rows call.eventUuid with
  | none =>
    rw [hcurrent] at h
    exact absurd rfl h
  | some current =>
    rw [hcurrent] at h
    by_cases hlive : call.now < current.2.leaseExpiresAt <;> cases hs : current.2.state <;>
      simp_all [ClaimLifecycle.nonReclaimable]

/-- Reads and claims agree at a content of the table, reached by a run or not, if and only if no
other claim on a symbol that the reads leave free has run out unexpired. -/
theorem reads_agree_iff (rows : Claims) (nextId : ℕ) (call : ClaimCall) (ownerToken : ℕ) :
    ReadsAgree rows nextId call ownerToken ↔ (ReadsFree rows call → NoneLapsed rows call) := by
  constructor
  · exact fun h hfree => (tryClaim_free_iff hfree).mp (h.free hfree)
  · exact fun h => ⟨fun hfree => (tryClaim_free_iff hfree).mpr (h hfree), tryClaim_taken⟩

/-- The first fire on a symbol is claimed and nothing ends the claim. When its lease has run out
the reads leave a second fire on the symbol free, and the insert refuses it. -/
theorem lapsed_claim_blocks :
    ∃ w, Reachable ClaimStart ClaimWorld.step w ∧
      ¬ ReadsAgree w.rows w.nextId { samsungFire 1800 "second" with eventUuid := 8 } 200 := by
  have hrun : ((run ClaimWorld.step {} [.select 1 (samsungFire 0 "first"), .insert 1 100]).any
      fun w => decide (stateFor w.rows 8 1800 = .unclaimed ∧
        "005930" ∉ activeSymbols w.rows 1800) &&
        (tryClaim w.rows w.nextId { samsungFire 1800 "second" with eventUuid := 8 } 200).isNone) =
      true := by decide +kernel
  obtain ⟨w, hw, hblocked⟩ := (Option.any_eq_true _ _).mp hrun
  simp only [Bool.and_eq_true, decide_eq_true_eq, Option.isNone_iff_eq_none] at hblocked
  refine ⟨w, reachable_of_run rfl hw, fun hagree => ?_⟩
  obtain ⟨t, handle, hclaim⟩ := hagree.free hblocked.1
  rw [hblocked.2] at hclaim
  cases hclaim

end KAssetTrader.Repricing
