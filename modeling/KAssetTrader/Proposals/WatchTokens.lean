import KAssetTrader.Proposals.WatchScope

/-!
What the tokens of the reservations guarantee. A token is drawn by one inspection and held by
one reservation, which leaves it behind when it authorizes a creation; so an inspection
authorizes at most one, in the transaction that made it and found the scope free.
-/

namespace KAssetTrader.Proposals

open Transition

namespace WatchWorld

/-- An inspection that holds the lock, with the token and the transaction of its reservation. -/
structure IssuedFor (issue : Issued) (token transaction : ℕ) (key : ScopeKey) : Prop where
  acquired : issue.inspection.lockAcquired = true
  token : issue.inspection.reservationToken = some token
  transaction : issue.transaction = transaction
  key : issue.inspection.scope.toScopeKey = key

/-- The reservations, the tokens used up, and what was issued and created. -/
structure TokensKept (w : WatchWorld) : Prop where
  below : ∀ i key reservation, (w.workers i).reservations.get? key = some reservation →
    reservation.token < w.nextToken
  unique : ∀ i j key other reservation second,
    (w.workers i).reservations.get? key = some reservation →
    (w.workers j).reservations.get? other = some second →
    reservation.token = second.token → i = j ∧ key = other
  recorded : ∀ i key reservation, (w.workers i).reservations.get? key = some reservation →
    ∃ issue ∈ w.issued, IssuedFor issue reservation.token reservation.transaction key ∧
      issue.inspection.activeGroups.map (·.proposalId) = reservation.activeGroupProposalIds
  unspent : ∀ i key reservation, (w.workers i).reservations.get? key = some reservation →
    ∀ attempt ∈ w.attempts, attempt.token ≠ reservation.token
  spent : ∀ attempt ∈ w.attempts, attempt.token < w.nextToken
  once : (w.attempts.map (·.token)).Nodup
  attempted : ∀ attempt ∈ w.attempts, ∃ issue ∈ w.issued,
    IssuedFor issue attempt.token attempt.transaction attempt.key ∧
      issue.inspection.activeGroups = []
  created : ∀ attempt ∈ w.created, attempt ∈ w.attempts

variable {w t : WatchWorld} {i : ℕ}

theorem TokensKept.start (h : Start w) : w.TokensKept := by
  obtain ⟨committed, -, rfl⟩ := h
  constructor
  · intro i key reservation hget
    cases hget
  · intro i j key other reservation second hget
    cases hget
  · intro i key reservation hget
    cases hget
  · intro i key reservation hget
    cases hget
  · intro attempt hmem
    cases hmem
  · exact List.nodup_nil
  · intro attempt hmem
    cases hmem
  · intro attempt hmem
    cases hmem

theorem TokensKept.mono (h : w.TokensKept)
    (hworkers : ∀ j, (t.workers j).reservations = (w.workers j).reservations)
    (hnext : t.nextToken = w.nextToken) (hissued : w.issued ⊆ t.issued)
    (hattempts : t.attempts = w.attempts) (hcreated : t.created = w.created) : t.TokensKept := by
  constructor
  · intro i key reservation hget
    rw [hworkers] at hget
    rw [hnext]
    exact h.below i key reservation hget
  · intro i j key other reservation second hget hsecond
    rw [hworkers] at hget hsecond
    exact h.unique i j key other reservation second hget hsecond
  · intro i key reservation hget
    rw [hworkers] at hget
    obtain ⟨issue, hmem, hissue⟩ := h.recorded i key reservation hget
    exact ⟨issue, hissued hmem, hissue⟩
  · intro i key reservation hget
    rw [hworkers] at hget
    rw [hattempts]
    exact h.unspent i key reservation hget
  · rw [hattempts, hnext]
    exact h.spent
  · rw [hattempts]
    exact h.once
  · intro attempt hmem
    rw [hattempts] at hmem
    obtain ⟨issue, hissue, hfor⟩ := h.attempted attempt hmem
    exact ⟨issue, hissued hissue, hfor⟩
  · rw [hattempts, hcreated]
    exact h.created

theorem begun_reservations (w : WatchWorld) (i j : ℕ) :
    ((w.begun i).workers j).reservations = (w.workers j).reservations := by
  unfold begun
  split
  · rfl
  · by_cases hj : j = i
    · subst hj
      simp
    · simp [hj]

theorem begun_frame (w : WatchWorld) (i : ℕ) :
    (w.begun i).rows = w.rows ∧ (w.begun i).scopeLocks = w.scopeLocks ∧
      (w.begun i).nextToken = w.nextToken ∧ (w.begun i).drawn = w.drawn ∧
      (w.begun i).issued = w.issued ∧ (w.begun i).attempts = w.attempts ∧
      (w.begun i).created = w.created := by
  unfold begun
  split
  · exact ⟨rfl, rfl, rfl, rfl, rfl, rfl, rfl⟩
  · exact ⟨rfl, rfl, rfl, rfl, rfl, rfl, rfl⟩

theorem TokensKept.begun (h : w.TokensKept) (i : ℕ) : (w.begun i).TokensKept := by
  obtain ⟨-, -, hnext, -, hissued, hattempts, hcreated⟩ := w.begun_frame i
  exact h.mono (w.begun_reservations i) hnext (by rw [hissued]; exact List.Subset.refl _)
    hattempts hcreated

variable {scope : WatchToOrderScope} {j : ℕ} {key : ScopeKey} {reservation : Reservation}
  {attempt : Attempt} {inspection : Inspection} {creation : ProposalCreation} {now : Instant}
  {others : Store} {operation : Operation}

theorem of_reserve {transaction : ℕ}
    (hget : ((w.reserve i transaction scope).workers j).reservations.get? key = some reservation) :
    (j = i ∧ key = scope.toScopeKey ∧ reservation =
        { token := w.nextToken
          transaction
          activeGroupProposalIds :=
            (activeScopeGroups (w.rows.view i) scope.toScopeKey).map (·.proposalId) }) ∨
      (w.workers j).reservations.get? key = some reservation := by
  unfold reserve at hget
  by_cases hj : j = i
  · subst hj
    simp only [Function.update_self] at hget
    rcases Dict.of_get?_set hget with ⟨hkey, hvalue⟩ | ⟨-, hold⟩
    · exact .inl ⟨rfl, hkey, hvalue⟩
    · exact .inr hold
  · simp only [Function.update_of_ne hj] at hget
    exact .inr hget

theorem TokensKept.reserve (h : w.TokensKept) (i transaction : ℕ) (scope : WatchToOrderScope) :
    (w.reserve i transaction scope).TokensKept := by
  have hissued : w.issued ⊆ (w.reserve i transaction scope).issued := List.subset_append_left _ _
  constructor
  · intro j key reservation hget
    rcases of_reserve hget with ⟨-, -, rfl⟩ | hold
    · exact Nat.lt_succ_self _
    · exact (h.below j key reservation hold).trans (Nat.lt_succ_self _)
  · intro j k key other reservation second hget hsecond hsame
    rcases of_reserve hget with ⟨rfl, rfl, rfl⟩ | hold
    · rcases of_reserve hsecond with ⟨rfl, rfl, -⟩ | hold
      · exact ⟨rfl, rfl⟩
      · exact absurd hsame (h.below k other second hold).ne'
    · rcases of_reserve hsecond with ⟨rfl, rfl, rfl⟩ | hold'
      · exact absurd hsame (h.below j key reservation hold).ne
      · exact h.unique j k key other reservation second hold hold' hsame
  · intro j key reservation hget
    rcases of_reserve hget with ⟨rfl, rfl, rfl⟩ | hold
    · refine ⟨_, List.mem_append_right _ (List.mem_singleton_self _), ?_, rfl⟩
      exact ⟨rfl, rfl, rfl, rfl⟩
    · obtain ⟨issue, hmem, hissue⟩ := h.recorded j key reservation hold
      exact ⟨issue, hissued hmem, hissue⟩
  · intro j key reservation hget attempt hattempt
    rcases of_reserve hget with ⟨-, -, rfl⟩ | hold
    · exact (h.spent attempt hattempt).ne
    · exact h.unspent j key reservation hold attempt hattempt
  · intro attempt hattempt
    exact (h.spent attempt hattempt).trans (Nat.lt_succ_self _)
  · exact h.once
  · intro attempt hattempt
    obtain ⟨issue, hmem, hissue⟩ := h.attempted attempt hattempt
    exact ⟨issue, hissued hmem, hissue⟩
  · exact h.created

theorem of_spend {key other : ScopeKey}
    (hget : ((w.spend i key attempt).workers j).reservations.get? other = some reservation) :
    (w.workers j).reservations.get? other = some reservation ∧ (j = i → other ≠ key) := by
  unfold spend at hget
  by_cases hj : j = i
  · subst hj
    simp only [Function.update_self] at hget
    obtain ⟨hne, hold⟩ := Dict.of_get?_erase hget
    exact ⟨hold, fun _ => hne⟩
  · simp only [Function.update_of_ne hj] at hget
    exact ⟨hget, fun heq => absurd heq hj⟩

theorem TokensKept.spend (h : w.TokensKept)
    (hget : (w.workers i).reservations.get? key = some reservation)
    (hempty : reservation.activeGroupProposalIds = []) (htoken : attempt.token = reservation.token)
    (htransaction : attempt.transaction = reservation.transaction) (hkey : attempt.key = key) :
    (w.spend i key attempt).TokensKept := by
  have hmem : ∀ old, old ∈ (w.spend i key attempt).attempts → old ∈ w.attempts ∨ old = attempt := by
    intro old hold
    rcases List.mem_append.mp hold with hold | hold
    · exact .inl hold
    · exact .inr (List.mem_singleton.mp hold)
  constructor
  · intro j other left hleft
    exact h.below j other left (of_spend hleft).1
  · intro j k other third left second hleft hsecond
    exact h.unique j k other third left second (of_spend hleft).1 (of_spend hsecond).1
  · intro j other left hleft
    exact h.recorded j other left (of_spend hleft).1
  · intro j other left hleft old hold
    obtain ⟨hbefore, hother⟩ := of_spend hleft
    rcases hmem old hold with hold | rfl
    · exact h.unspent j other left hbefore old hold
    · intro hsame
      obtain ⟨hi, hsameKey⟩ :=
        h.unique i j key other reservation left hget hbefore (htoken.symm.trans hsame)
      exact hother hi.symm hsameKey.symm
  · intro old hold
    rcases hmem old hold with hold | rfl
    · exact h.spent old hold
    · rw [htoken]
      exact h.below i key reservation hget
  · have hfresh : attempt.token ∉ w.attempts.map (·.token) := by
      intro hin
      obtain ⟨old, hold, hsame⟩ := List.mem_map.mp hin
      exact h.unspent i key reservation hget old hold (hsame.trans htoken)
    have happend : (w.spend i key attempt).attempts.map (·.token) =
        w.attempts.map (·.token) ++ [attempt.token] := by
      simp [WatchWorld.spend]
    rw [happend]
    exact List.nodup_append_comm.mp (List.nodup_cons.mpr ⟨hfresh, h.once⟩)
  · intro old hold
    rcases hmem old hold with hold | rfl
    · exact h.attempted old hold
    · obtain ⟨issue, hissue, hfor, hgroups⟩ := h.recorded i key reservation hget
      refine ⟨issue, hissue, ?_, ?_⟩
      · rw [htoken, htransaction, hkey]
        exact hfor
      · rw [hempty] at hgroups
        exact List.map_eq_nil_iff.mp hgroups
  · intro old hold
    exact List.mem_append_left _ (h.created old hold)

/-- The creation through the seam: the reservation it uses up, and then nothing, or the rows
as `create_proposal` leaves them. -/
theorem of_create (hstep : w.create i inspection creation now = some t) :
    ∃ transaction reservation attempt,
      (w.workers i).transaction = some transaction ∧
      (w.workers i).reservations.get? inspection.scope.toScopeKey = some reservation ∧
      reservation.transaction = transaction.id ∧ transaction.state ≠ .deactivated ∧
      reservation.activeGroupProposalIds = [] ∧ creation.Requests inspection.scope ∧
      creation.proposalId ∉ w.drawn ∧
      attempt = ⟨reservation.token, transaction.id, inspection.scope.toScopeKey,
        creation.proposalId⟩ ∧
      (t = w.spend i inspection.scope.toScopeKey attempt ∨
        transaction.state ≠ .lost ∧ ∃ store rows,
          ({ proposals := w.rows.view i } : Store).createProposal creation now = .ok store ∧
          w.rows.write i store.proposals = some rows ∧
          t = { w.spend i inspection.scope.toScopeKey attempt with
            rows, created := w.created ++ [attempt] }) := by
  unfold create at hstep
  simp only at hstep
  split at hstep
  next transaction reservation htransaction hreservation =>
    split at hstep
    next hgate =>
      obtain ⟨-, -, hsame, hstate, hrequests, hempty, hfresh⟩ := hgate
      refine ⟨transaction, reservation, _, htransaction, hreservation, hsame, hstate, hempty,
        hrequests, hfresh, rfl, ?_⟩
      split at hstep
      · exact .inl (Option.some.inj hstep).symm
      next hlive =>
      split at hstep
      · exact .inl (Option.some.inj hstep).symm
      next store hstore =>
      obtain ⟨rows, hrows, rfl⟩ := Option.map_eq_some_iff.mp hstep
      exact .inr ⟨hlive, store, rows, hstore, hrows, rfl⟩
    · cases hstep
  · cases hstep

theorem TokensKept.create (h : w.TokensKept) (hstep : w.create i inspection creation now = some t) :
    t.TokensKept := by
  obtain ⟨transaction, reservation, attempt, -, hget, hsame, -, hempty, -, -, rfl, hend⟩ :=
    of_create hstep
  have hspent : (w.spend i inspection.scope.toScopeKey ⟨reservation.token, transaction.id,
      inspection.scope.toScopeKey, creation.proposalId⟩).TokensKept :=
    h.spend hget hempty rfl hsame.symm rfl
  rcases hend with rfl | ⟨-, store, rows, -, -, rfl⟩
  · exact hspent
  · constructor
    · exact hspent.below
    · exact hspent.unique
    · exact hspent.recorded
    · exact hspent.unspent
    · exact hspent.spent
    · exact hspent.once
    · exact hspent.attempted
    · intro old hold
      rcases List.mem_append.mp hold with hold | hold
      · exact hspent.created old hold
      · rw [List.mem_singleton.mp hold]
        exact List.mem_append_right _ (List.mem_singleton_self _)

theorem ended_reservations (w : WatchWorld) (i j : ℕ) (rows : Rows ProposalId OrderProposal)
    (transaction : Option SessionTransaction) :
    ((w.ended i rows transaction).workers j).reservations = (w.workers j).reservations := by
  unfold ended
  by_cases hj : j = i
  · subst hj
    simp
  · simp [hj]

theorem TokensKept.ended (h : w.TokensKept) (i : ℕ) (rows : Rows ProposalId OrderProposal)
    (transaction : Option SessionTransaction) : (w.ended i rows transaction).TokensKept :=
  h.mono (w.ended_reservations i · rows transaction) rfl (List.Subset.refl _) rfl rfl

theorem TokensKept.inspect (h : w.TokensKept) (hstep : w.inspect i scope = some t) :
    t.TokensKept := by
  have hbegun := h.begun i
  unfold WatchWorld.inspect at hstep
  simp only at hstep
  split at hstep
  · cases hstep
  split at hstep
  · cases hstep
    exact hbegun.mono (fun _ => rfl) rfl (List.subset_append_left _ _) rfl rfl
  · cases hstep
    exact hbegun.reserve i _ scope

theorem of_operate (hstep : w.operate i others operation = some t) :
    (((w.begun i).workers i).live.isSome = true) ∧ (∀ id ∈ operation.draws, id ∉ w.drawn) ∧
      ∃ after rows, Proposals.step { others with proposals := w.rows.view i } operation =
          some after ∧ w.rows.write i after.proposals = some rows ∧
        t = { w.begun i with rows, drawn := operation.draws ++ w.drawn } := by
  obtain ⟨hrows, -, -, hdrawn, -⟩ := w.begun_frame i
  unfold operate at hstep
  simp only [hrows, hdrawn] at hstep
  split at hstep
  next henabled =>
    obtain ⟨after, hafter, hstep⟩ := Option.bind_eq_some_iff.mp hstep
    obtain ⟨rows, hwrite, hstep⟩ := Option.bind_eq_some_iff.mp hstep
    exact ⟨henabled.1, henabled.2, after, rows, hafter, hwrite, (Option.some.inj hstep).symm⟩
  · cases hstep

theorem TokensKept.operate (h : w.TokensKept) (hstep : w.operate i others operation = some t) :
    t.TokensKept := by
  obtain ⟨-, -, after, rows, -, -, rfl⟩ := of_operate hstep
  exact (h.begun i).mono (fun _ => rfl) rfl (List.Subset.refl _) rfl rfl

/-- The token of a reservation is used up by the creation it is spent on. -/
theorem TokensKept.step {action : WatchAction} (h : w.TokensKept)
    (hstep : w.step action = some t) : t.TokensKept := by
  cases action with
  | inspect i scope => exact h.inspect hstep
  | create i inspection creation now => exact h.create hstep
  | operate i others operation => exact h.operate hstep
  | commit i =>
    obtain ⟨_, -, rfl⟩ := Option.map_eq_some_iff.mp hstep
    exact h.ended i _ _
  | rollback i =>
    obtain ⟨_, -, rfl⟩ := Option.map_eq_some_iff.mp hstep
    exact h.ended i _ _
  | fail i deactivated =>
    obtain ⟨_, -, rfl⟩ := Option.map_eq_some_iff.mp hstep
    exact h.ended i _ _

end WatchWorld

end KAssetTrader.Proposals
