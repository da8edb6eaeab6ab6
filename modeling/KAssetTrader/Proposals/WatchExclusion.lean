import KAssetTrader.Proposals.WatchTokens

/-!
The exclusion of watch-to-order creation. A proposal that is created through the seam and not
committed yet belongs to the holder of the lock of its scope, who saw no other active proposal
of the seam there; a terminal rung never moves again; so in whatever way the open transactions
end, no two active proposals of the seam share a scope.
-/

namespace KAssetTrader.Proposals

open Rows Transition

namespace OrderProposal

variable {before after : OrderProposal}

theorem Continues.scopeKey (h : before.Continues after) : after.scopeKey = before.scopeKey := by
  unfold OrderProposal.scopeKey
  rw [h.terms]

theorem Continues.active (h : before.Continues after) (hactive : after.Active) :
    before.Active := by
  obtain ⟨rung, hrung, hopen⟩ := hactive
  obtain ⟨earlier, hearlier, hmoves⟩ := forall₂_moves_of_mem h.rungs hrung
  refine ⟨earlier, hearlier, ?_⟩
  intro hterminal
  apply hopen
  rw [hmoves.terminal hterminal]
  exact hterminal

end OrderProposal

section Scopes

variable {ids : List ProposalId} {before after : Dict ProposalId OrderProposal}
  {key : ScopeKey}

/-- No two of these proposals are active in one scope. -/
def Exclusive (ids : List ProposalId) (rows : Dict ProposalId OrderProposal) : Prop :=
  ∀ p ∈ ids, ∀ q ∈ ids, ∀ first second, rows.get? p = some first → rows.get? q = some second →
    first.Active → second.Active → first.scopeKey = second.scopeKey → p = q

def Clear (ids : List ProposalId) (rows : Dict ProposalId OrderProposal) (key : ScopeKey) :
    Prop :=
  ∀ p ∈ ids, ∀ group, rows.get? p = some group → group.scopeKey = key → ¬ group.Active

/-- The rows of these proposals continue earlier ones. -/
def Later (ids : List ProposalId) (before after : Dict ProposalId OrderProposal) : Prop :=
  ∀ p ∈ ids, ∀ group, after.get? p = some group →
    ∃ earlier, before.get? p = some earlier ∧ earlier.Continues group

theorem Exclusive.later (h : Exclusive ids before) (hlater : Later ids before after) :
    Exclusive ids after := by
  intro p hp q hq first second hfirst hsecond hactive hactive' hsame
  obtain ⟨earlier, hget, hcontinues⟩ := hlater p hp first hfirst
  obtain ⟨earlier', hget', hcontinues'⟩ := hlater q hq second hsecond
  apply h p hp q hq earlier earlier' hget hget' (hcontinues.active hactive)
    (hcontinues'.active hactive')
  rw [← hcontinues.scopeKey, ← hcontinues'.scopeKey, hsame]

theorem Clear.later (h : Clear ids before key) (hlater : Later ids before after) :
    Clear ids after key := by
  intro p hp group hget hkey hactive
  obtain ⟨earlier, hearlier, hcontinues⟩ := hlater p hp group hget
  exact h p hp earlier hearlier (hcontinues.scopeKey.symm.trans hkey) (hcontinues.active hactive)

theorem Exclusive.append {p : ProposalId} (h : Exclusive ids before)
    (hclear : ∀ group, before.get? p = some group → Clear ids before group.scopeKey) :
    Exclusive (ids ++ [p]) before := by
  intro q hq r hr first second hfirst hsecond hactive hactive' hsame
  rw [List.mem_append, List.mem_singleton] at hq hr
  rcases hq with hq | rfl
  · rcases hr with hr | rfl
    · exact h q hq r hr first second hfirst hsecond hactive hactive' hsame
    · exact absurd hactive (hclear second hsecond q hq first hfirst hsame)
  · rcases hr with hr | rfl
    · exact absurd hactive' (hclear first hfirst r hr second hsecond hsame.symm)
    · rfl

theorem Clear.append {p : ProposalId} (h : Clear ids before key)
    (hother : ∀ group, before.get? p = some group → group.scopeKey ≠ key) :
    Clear (ids ++ [p]) before key := by
  intro q hq group hget hkey
  rw [List.mem_append, List.mem_singleton] at hq
  rcases hq with hq | rfl
  · exact h q hq group hget hkey
  · exact absurd hkey (hother group hget)

theorem clear_of_activeScopeGroups {rows : Dict ProposalId OrderProposal}
    (h : activeScopeGroups rows key = []) (ids : List ProposalId) : Clear ids rows key := by
  intro p _ group hget hkey hactive
  rw [activeScopeGroups, List.map_eq_nil_iff, List.filter_eq_nil_iff] at h
  exact h (p, group) (rows.get?_eq_some.mp hget) (decide_eq_true ⟨hkey, hactive⟩)

end Scopes

namespace WatchWorld

def createdIds (w : WatchWorld) : List ProposalId := w.created.map (·.proposalId)

/-- The rows of the world, the locks that protect them, and what the reservations know. -/
structure RowsKept (w : WatchWorld) : Prop where
  locked : w.rows.Locked OrderProposal.Continues
  kept : ∀ i id group, (w.rows.view i).get? id = some group → group.Kept
  committedKept : ∀ id group, w.rows.committed.get? id = some group → group.Kept
  drawn : ∀ i id group, (w.rows.view i).get? id = some group → id ∈ w.drawn
  committedDrawn : ∀ id group, w.rows.committed.get? id = some group → id ∈ w.drawn
  createdDrawn : ∀ id ∈ w.createdIds, id ∈ w.drawn
  pending : ∀ i id group, (w.rows.own i).get? id = some group →
    w.rows.committed.get? id = none → id ∈ w.createdIds →
    w.scopeLocks.get? group.scopeKey = some i
  exclusive : ∀ i, Exclusive w.createdIds (w.rows.view i)
  committedExclusive : Exclusive w.createdIds w.rows.committed
  numbered : ∀ i transaction, (w.workers i).transaction = some transaction →
    transaction.id < w.nextTransaction
  reservedBefore : ∀ i key reservation,
    (w.workers i).reservations.get? key = some reservation →
    reservation.transaction < w.nextTransaction
  reserved : ∀ i key reservation, (w.workers i).reservations.get? key = some reservation →
    (w.workers i).live = some reservation.transaction →
    w.scopeLocks.get? key = some i ∧
      (reservation.activeGroupProposalIds = [] → Clear w.createdIds (w.rows.view i) key)

variable {group : OrderProposal} {id : ProposalId} {w t : WatchWorld} {i j : ℕ}

section Steps

theorem RowsKept.start (h : Start w) : w.RowsKept := by
  obtain ⟨committed, hkept, rfl⟩ := h
  have hview : ∀ i, (({ committed } : Rows ProposalId OrderProposal).view i) = committed :=
    fun _ => rfl
  have hkeys : ∀ id group, committed.get? id = some group → id ∈ committed.keys := by
    intro id group hget
    by_contra hnot
    rw [committed.get?_eq_none.mpr hnot] at hget
    cases hget
  constructor
  · constructor
    · intro i k row hget
      cases hget
    · intro i k row before hget
      cases hget
  · intro i id group hget
    exact hkept id group hget
  · exact hkept
  · intro i id group hget
    exact hkeys id group hget
  · exact hkeys
  · intro id hid
    cases hid
  · intro i id group hget
    cases hget
  · intro i p hp
    cases hp
  · intro p hp
    cases hp
  · intro i transaction hget
    cases hget
  · intro i key reservation hget
    cases hget
  · intro i key reservation hget
    cases hget

variable {transaction : ℕ} {scope : WatchToOrderScope}

theorem live_eq_some {worker : Worker} (h : worker.live = some transaction) :
    worker.transaction = some { id := transaction, state := .live } := by
  unfold Worker.live at h
  split at h
  next id hsome =>
    cases h
    exact hsome
  · cases h

theorem RowsKept.begun (h : w.RowsKept) (i : ℕ) : (w.begun i).RowsKept := by
  unfold WatchWorld.begun
  split
  · exact h
  next hnone =>
  constructor
  · exact h.locked
  · exact h.kept
  · exact h.committedKept
  · exact h.drawn
  · exact h.committedDrawn
  · exact h.createdDrawn
  · exact h.pending
  · exact h.exclusive
  · exact h.committedExclusive
  · intro j transaction hget
    by_cases hj : j = i
    · subst hj
      simp only [Function.update_self, Option.some.injEq] at hget
      rw [← hget]
      exact Nat.lt_succ_self _
    · simp only [Function.update_of_ne hj] at hget
      exact (h.numbered j transaction hget).trans (Nat.lt_succ_self _)
  · intro j key reservation hget
    apply lt_trans _ (Nat.lt_succ_self _)
    by_cases hj : j = i
    · subst hj
      simp only [Function.update_self] at hget
      exact h.reservedBefore j key reservation hget
    · simp only [Function.update_of_ne hj] at hget
      exact h.reservedBefore j key reservation hget
  · intro j key reservation hget hlive
    by_cases hj : j = i
    · subst hj
      simp only [Function.update_self] at hget hlive
      have hbefore := h.reservedBefore j key reservation hget
      have hnew : w.nextTransaction = reservation.transaction := Option.some.inj hlive
      omega
    · simp only [Function.update_of_ne hj] at hget hlive
      exact h.reserved j key reservation hget hlive

theorem RowsKept.reserve (h : w.RowsKept) (hlive : (w.workers i).live = some transaction)
    (hfree : ∀ holder ∈ w.scopeLocks.get? scope.toScopeKey, holder = i) :
    (w.reserve i transaction scope).RowsKept := by
  have hlock : ∀ key holder, w.scopeLocks.get? key = some holder →
      (w.scopeLocks.set scope.toScopeKey i).get? key = some holder := by
    intro key holder hholder
    rw [Dict.get?_set]
    split
    next hkey =>
      rw [hkey] at hholder
      rw [hfree holder hholder]
    · exact hholder
  have htransaction := live_eq_some hlive
  constructor
  · exact h.locked
  · exact h.kept
  · exact h.committedKept
  · exact h.drawn
  · exact h.committedDrawn
  · exact h.createdDrawn
  · intro j id group hget hnone hid
    exact hlock _ _ (h.pending j id group hget hnone hid)
  · exact h.exclusive
  · exact h.committedExclusive
  · intro j other hget
    unfold WatchWorld.reserve at hget
    by_cases hj : j = i
    · subst hj
      simp only [Function.update_self] at hget
      exact h.numbered j other hget
    · simp only [Function.update_of_ne hj] at hget
      exact h.numbered j other hget
  · intro j key reservation hget
    rcases of_reserve hget with ⟨-, -, rfl⟩ | hold
    · exact h.numbered i _ htransaction
    · exact h.reservedBefore j key reservation hold
  · intro j key reservation hget hreserved
    rcases of_reserve hget with ⟨rfl, rfl, rfl⟩ | hold
    · refine ⟨?_, ?_⟩
      · change (w.scopeLocks.set scope.toScopeKey j).get? scope.toScopeKey = some j
        rw [Dict.get?_set, if_pos rfl]
      · intro hempty
        exact clear_of_activeScopeGroups (List.map_eq_nil_iff.mp hempty) _
    · have hsame : ((w.reserve i transaction scope).workers j).live = (w.workers j).live := by
        unfold WatchWorld.reserve
        by_cases hj : j = i
        · subst hj
          simp only [Function.update_self]
          rfl
        · simp only [Function.update_of_ne hj]
      rw [hsame] at hreserved
      obtain ⟨hholder, hclear⟩ := h.reserved j key reservation hold hreserved
      exact ⟨hlock _ _ hholder, hclear⟩

theorem RowsKept.inspect (h : w.RowsKept) (hstep : w.inspect i scope = some t) : t.RowsKept := by
  have hbegun := h.begun i
  unfold WatchWorld.inspect at hstep
  simp only at hstep
  split at hstep
  · cases hstep
  next transaction hlive =>
  split at hstep
  · cases hstep
    exact ⟨hbegun.locked, hbegun.kept, hbegun.committedKept, hbegun.drawn,
      hbegun.committedDrawn, hbegun.createdDrawn, hbegun.pending, hbegun.exclusive,
      hbegun.committedExclusive, hbegun.numbered, hbegun.reservedBefore, hbegun.reserved⟩
  next hfree =>
    cases hstep
    apply hbegun.reserve hlive
    intro holder hholder
    by_contra hne
    exact hfree ⟨holder, hholder, hne⟩

end Steps

section Writes

variable {draws : List ProposalId} {rows : Rows ProposalId OrderProposal}
  {after : Dict ProposalId OrderProposal}

/-- The rows after a worker has written what an operation of the service makes of its view. -/
structure Written (w : WatchWorld) (i : ℕ) (draws : List ProposalId)
    (after : Dict ProposalId OrderProposal) (rows : Rows ProposalId OrderProposal) : Prop where
  locked : rows.Locked OrderProposal.Continues
  view : ∀ id, (rows.view i).get? id = after.get? id
  other : ∀ j, j ≠ i → rows.view j = w.rows.view j
  ownOther : ∀ j, j ≠ i → rows.own j = w.rows.own j
  committed : rows.committed = w.rows.committed
  kept : ∀ id group, after.get? id = some group → group.Kept
  from_ : ∀ id group, after.get? id = some group →
    (∃ earlier, (w.rows.view i).get? id = some earlier ∧ earlier.Continues group) ∨ id ∈ draws

variable {others : Store} {operation : Operation}

theorem RowsKept.written (h : w.RowsKept) {store : Store}
    (hstep : Proposals.step { others with proposals := w.rows.view i } operation = some store)
    (hwrite : w.rows.write i store.proposals = some rows) :
    Written w i operation.draws store.proposals rows := by
  have hkept : Store.Kept { others with proposals := w.rows.view i } := h.kept i
  have hpersists : ∀ id group, (w.rows.view i).get? id = some group →
      ∃ next, store.proposals.get? id = some next ∧ group.Continues next := by
    intro id group hget
    exact step_continues hkept hstep hget
  constructor
  · exact h.locked.write (fun _ _ _ => OrderProposal.Continues.trans) hpersists hwrite
  · intro id
    apply get?_view_write hwrite
    intro id group hget
    obtain ⟨next, hnext, -⟩ := hpersists id group hget
    rw [hnext]
    rfl
  · intro j hj
    exact view_write_other hwrite hj
  · intro j hj
    exact own_write_other hwrite hj
  · exact committed_write hwrite
  · exact step_kept hkept hstep
  · intro id group hget
    have hturn := step_turn hkept hstep id
    rw [hget] at hturn
    change Turn _ operation id ((w.rows.view i).get? id) (some group) at hturn
    cases hbefore : (w.rows.view i).get? id with
    | some earlier =>
      obtain ⟨next, hnext, hcontinues⟩ := hpersists id earlier hbefore
      cases hget.symm.trans hnext
      exact .inl ⟨earlier, rfl, hcontinues⟩
    | none =>
      rw [hbefore] at hturn
      cases hturn with
      | created creation rootId deadline now hoperation hid =>
        right
        rw [hoperation, hid]
        exact List.mem_singleton_self _

theorem Written.later (hw : Written w i draws after rows) (h : w.RowsKept)
    (hfresh : ∀ id ∈ draws, id ∉ w.drawn) : Later w.createdIds (w.rows.view i) after := by
  intro p hp group hget
  rcases hw.from_ p group hget with hearlier | hdraws
  · exact hearlier
  · exact absurd (h.createdDrawn p hp) (hfresh p hdraws)

theorem RowsKept.after_write (h : w.RowsKept) (hw : Written w i draws after rows)
    (hfresh : ∀ id ∈ draws, id ∉ w.drawn) :
    (∀ j, Exclusive w.createdIds (rows.view j)) ∧
    (∀ j key, Clear w.createdIds (w.rows.view j) key → Clear w.createdIds (rows.view j) key) ∧
    ∀ j id group, (rows.own j).get? id = some group → rows.committed.get? id = none →
      id ∈ w.createdIds → w.scopeLocks.get? group.scopeKey = some j := by
  have hlater : Later w.createdIds (w.rows.view i) (rows.view i) := by
    intro p hp group hget
    rw [hw.view] at hget
    exact hw.later h hfresh p hp group hget
  refine ⟨?_, ?_, ?_⟩
  · intro j
    by_cases hj : j = i
    · subst hj
      exact (h.exclusive j).later hlater
    · rw [hw.other j hj]
      exact h.exclusive j
  · intro j key hclear
    by_cases hj : j = i
    · subst hj
      exact hclear.later hlater
    · rw [hw.other j hj]
      exact hclear
  · intro j id group hown hnone hid
    rw [hw.committed] at hnone
    by_cases hj : j = i
    · subst hj
      obtain ⟨earlier, hearlier, hcontinues⟩ :=
        hlater id hid group (get?_view_of_own hown)
      have hbefore : (w.rows.own j).get? id = some earlier := by
        rw [get?_view, hnone, Option.or_none] at hearlier
        exact hearlier
      rw [hcontinues.scopeKey]
      exact h.pending j id earlier hbefore hnone hid
    · rw [hw.ownOther j hj] at hown
      exact h.pending j id group hown hnone hid

theorem RowsKept.after_write_rows (h : w.RowsKept) (hw : Written w i draws after rows) :
    (∀ j id group, (rows.view j).get? id = some group → group.Kept) ∧
    (∀ j id group, (rows.view j).get? id = some group → id ∈ draws ++ w.drawn) := by
  refine ⟨?_, ?_⟩
  · intro j id group hget
    by_cases hj : j = i
    · subst hj
      rw [hw.view] at hget
      exact hw.kept id group hget
    · rw [hw.other j hj] at hget
      exact h.kept j id group hget
  · intro j id group hget
    by_cases hj : j = i
    · subst hj
      rw [hw.view] at hget
      rcases hw.from_ id group hget with ⟨earlier, hearlier, -⟩ | hdraws
      · exact List.mem_append_right _ (h.drawn j id earlier hearlier)
      · exact List.mem_append_left _ hdraws
    · rw [hw.other j hj] at hget
      exact List.mem_append_right _ (h.drawn j id group hget)

theorem RowsKept.operate (h : w.RowsKept) (hstep : w.operate i others operation = some t) :
    t.RowsKept := by
  obtain ⟨-, hfresh, store, rows, hstore, hwrite, rfl⟩ := of_operate hstep
  obtain ⟨hrows, -, -, hdrawn, -⟩ := w.begun_frame i
  have hbegun := h.begun i
  rw [← hrows] at hstore hwrite
  have hw := hbegun.written hstore hwrite
  rw [← hdrawn] at hfresh
  obtain ⟨hexclusive, hclear, hpending⟩ := hbegun.after_write hw hfresh
  obtain ⟨hkept, hinDrawn⟩ := hbegun.after_write_rows hw
  rw [hdrawn] at hinDrawn
  constructor
  · exact hw.locked
  · exact hkept
  · intro id group hget
    rw [hw.committed] at hget
    exact hbegun.committedKept id group hget
  · exact hinDrawn
  · intro id group hget
    rw [hw.committed] at hget
    have hmem := hbegun.committedDrawn id group hget
    rw [hdrawn] at hmem
    exact List.mem_append_right _ hmem
  · intro id hid
    have hmem := hbegun.createdDrawn id hid
    rw [hdrawn] at hmem
    exact List.mem_append_right _ hmem
  · exact hpending
  · exact hexclusive
  · change Exclusive _ rows.committed
    rw [hw.committed]
    exact hbegun.committedExclusive
  · exact hbegun.numbered
  · exact hbegun.reservedBefore
  · intro j key reservation hget hlive
    obtain ⟨hlock, hempty⟩ := hbegun.reserved j key reservation hget hlive
    exact ⟨hlock, fun h => hclear j key (hempty h)⟩

end Writes

section Create

theorem spend_live (w : WatchWorld) (i j : ℕ) (key : ScopeKey) (attempt : Attempt) :
    ((w.spend i key attempt).workers j).transaction = (w.workers j).transaction := by
  unfold spend
  by_cases hj : j = i
  · subst hj
    simp
  · simp [hj]

theorem live_congr {worker other : Worker} (h : worker.transaction = other.transaction) :
    worker.live = other.live := by
  unfold Worker.live
  rw [h]

theorem RowsKept.spend (h : w.RowsKept) (i : ℕ) (key : ScopeKey) (attempt : Attempt) :
    (w.spend i key attempt).RowsKept where
  locked := h.locked
  kept := h.kept
  committedKept := h.committedKept
  drawn j id group hget := List.mem_cons_of_mem _ (h.drawn j id group hget)
  committedDrawn id group hget := List.mem_cons_of_mem _ (h.committedDrawn id group hget)
  createdDrawn id hid := List.mem_cons_of_mem _ (h.createdDrawn id hid)
  pending := h.pending
  exclusive := h.exclusive
  committedExclusive := h.committedExclusive
  numbered j transaction hget := by
    rw [spend_live] at hget
    exact h.numbered j transaction hget
  reservedBefore j other reservation hget :=
    h.reservedBefore j other reservation (of_spend hget).1
  reserved j other reservation hget hlive := by
    rw [live_congr (w.spend_live i j key attempt)] at hlive
    exact h.reserved j other reservation (of_spend hget).1 hlive

variable {creation : ProposalCreation} {now : Instant}

theorem created_scopeKey {s store : Store} {scope : WatchToOrderScope} {group : OrderProposal}
    (hcreated : s.createProposal creation now = .ok store) (hrequests : creation.Requests scope)
    (habsent : s.proposals.get? creation.proposalId = none)
    (hget : store.proposals.get? creation.proposalId = some group) :
    group.scopeKey = scope.toScopeKey := by
  have hturn := createProposal_turn hcreated creation.proposalId
  rw [habsent, hget] at hturn
  cases hturn with
  | created other rootId deadline now hoperation =>
    obtain ⟨rfl, -⟩ := Operation.createProposal.inj hoperation
    obtain ⟨hsymbol, hmarket, hmode, haccount, -⟩ := hrequests
    simp only [OrderProposal.scopeKey, ProposalCreation.group, ProposalCreation.terms, hsymbol,
      hmarket, hmode, haccount]

/-- A creation writes its row under the locks of its scope. -/
theorem RowsKept.create (h : w.RowsKept) {inspection : Inspection}
    (hstep : w.create i inspection creation now = some t) : t.RowsKept := by
  obtain ⟨transaction, reservation, attempt, htransaction, hget, hsame, hstate, hempty, hrequests,
    hfresh, rfl, hend⟩ := of_create hstep
  have hspent := h.spend i inspection.scope.toScopeKey
    ⟨reservation.token, transaction.id, inspection.scope.toScopeKey, creation.proposalId⟩
  rcases hend with rfl | ⟨hnotLost, store, rows, hcreated, hwrite, rfl⟩
  · exact hspent
  have hlive : (w.workers i).live = some reservation.transaction := by
    obtain ⟨id, state⟩ := transaction
    unfold Worker.live
    rw [htransaction, hsame]
    cases state with
    | live => rfl
    | deactivated => exact absurd rfl hstate
    | lost => exact absurd rfl hnotLost
  obtain ⟨hlock, hclear⟩ := h.reserved i _ reservation hget hlive
  have hstepped : Proposals.step
      { ({ proposals := w.rows.view i } : Store) with proposals := w.rows.view i }
      (.createProposal creation now) = some store := by
    simp only [Proposals.step, hcreated, Except.toOption]
  have hw := h.written hstepped hwrite
  have hdraws : ∀ id ∈ (Operation.createProposal creation now).draws, id ∉ w.drawn := by
    intro id hid
    rw [List.mem_singleton.mp hid]
    exact hfresh
  obtain ⟨hexclusive, hkeepsClear, hpending⟩ := h.after_write hw hdraws
  obtain ⟨hkept, hdrawn⟩ := h.after_write_rows hw
  have habsent : ∀ j, (w.rows.view j).get? creation.proposalId = none := by
    intro j
    cases hview : (w.rows.view j).get? creation.proposalId with
    | none => rfl
    | some group => exact absurd (h.drawn j _ group hview) hfresh
  have hunseen : ∀ j, j ≠ i → (rows.view j).get? creation.proposalId = none := by
    intro j hj
    rw [hw.other j hj]
    exact habsent j
  have hkey : ∀ group, (rows.view i).get? creation.proposalId = some group →
      group.scopeKey = inspection.scope.toScopeKey := by
    intro group hgroup
    rw [hw.view] at hgroup
    exact created_scopeKey hcreated hrequests (habsent i) hgroup
  have hids : (w.created ++ [(⟨reservation.token, transaction.id, inspection.scope.toScopeKey,
      creation.proposalId⟩ : Attempt)]).map (·.proposalId) =
        w.createdIds ++ [creation.proposalId] := by
    simp [createdIds]
  constructor
  · exact hw.locked
  · exact hkept
  · intro id group hcommitted
    rw [hw.committed] at hcommitted
    exact h.committedKept id group hcommitted
  · exact hdrawn
  · intro id group hcommitted
    rw [hw.committed] at hcommitted
    exact List.mem_cons_of_mem _ (h.committedDrawn id group hcommitted)
  · intro id hid
    rw [createdIds, hids, List.mem_append, List.mem_singleton] at hid
    rcases hid with hid | rfl
    · exact List.mem_cons_of_mem _ (h.createdDrawn id hid)
    · exact List.mem_cons_self
  · intro j id group hown hnone hid
    rw [createdIds, hids, List.mem_append, List.mem_singleton] at hid
    rcases hid with hid | rfl
    · exact hpending j id group hown hnone hid
    · have hview := get?_view_of_own hown
      by_cases hj : j = i
      · subst hj
        rw [hkey group hview]
        exact hlock
      · rw [hunseen j hj] at hview
        cases hview
  · intro j
    rw [createdIds, hids]
    apply Exclusive.append (hexclusive j)
    intro group hgroup
    by_cases hj : j = i
    · subst hj
      rw [hkey group hgroup]
      exact hkeepsClear j _ (hclear hempty)
    · rw [hunseen j hj] at hgroup
      cases hgroup
  · rw [createdIds, hids]
    change Exclusive _ rows.committed
    rw [hw.committed]
    apply Exclusive.append h.committedExclusive
    intro group hgroup
    exact absurd (h.committedDrawn _ group hgroup) hfresh
  · exact hspent.numbered
  · exact hspent.reservedBefore
  · intro j key other hother hotherLive
    have hspentOther : ((w.spend i inspection.scope.toScopeKey ⟨reservation.token,
        transaction.id, inspection.scope.toScopeKey, creation.proposalId⟩).workers
          j).reservations.get? key = some other := hother
    obtain ⟨hbefore, hne⟩ := of_spend hspentOther
    have hsameLive := live_congr (w.spend_live i j inspection.scope.toScopeKey
      ⟨reservation.token, transaction.id, inspection.scope.toScopeKey, creation.proposalId⟩)
    obtain ⟨hholder, hclearOther⟩ :=
      h.reserved j key other hbefore (hsameLive.symm.trans hotherLive)
    refine ⟨hholder, ?_⟩
    intro hemptyOther
    rw [createdIds, hids]
    apply Clear.append (hkeepsClear j key (hclearOther hemptyOther))
    intro group hgroup
    by_cases hj : j = i
    · subst hj
      rw [hkey group hgroup]
      exact (hne rfl).symm
    · rw [hunseen j hj] at hgroup
      cases hgroup

end Create

section Ends

variable {key : ScopeKey} {transaction : Option SessionTransaction}

/-- A lock of another worker stays when a transaction ends. -/
theorem released_lock (hj : j ≠ i) (hlock : w.scopeLocks.get? key = some j) :
    (w.scopeLocks.filter fun _ holder => holder ≠ i).get? key = some j :=
  (Dict.get?_filter_eq_some _).mpr ⟨hlock, decide_eq_true hj⟩

theorem ended_worker (rows : Rows ProposalId OrderProposal)
    (transaction : Option SessionTransaction) (hj : j ≠ i) :
    (w.ended i rows transaction).workers j = w.workers j := by
  unfold ended
  exact Function.update_of_ne hj _ _

theorem ended_transaction (rows : Rows ProposalId OrderProposal)
    (transaction : Option SessionTransaction) :
    ((w.ended i rows transaction).workers i).transaction = transaction := by
  unfold ended
  simp

/-- The transaction that a worker is left with is of an old number, and not live. -/
def Dead (w : WatchWorld) (transaction : Option SessionTransaction) : Prop :=
  ∀ left, transaction = some left → left.state ≠ .live ∧ left.id < w.nextTransaction

theorem Dead.live (h : w.Dead transaction) {worker : Worker}
    (hsame : worker.transaction = transaction) : worker.live = none := by
  unfold Worker.live
  split
  next left hlive =>
    exact absurd rfl (h _ (hsame.symm.trans hlive)).1
  · rfl

variable (h : w.RowsKept)
include h

theorem RowsKept.ended_numbered (rows : Rows ProposalId OrderProposal) (hdead : w.Dead transaction)
    (j : ℕ) (left : SessionTransaction)
    (hget : ((w.ended i rows transaction).workers j).transaction = some left) :
    left.id < w.nextTransaction := by
  by_cases hj : j = i
  · subst hj
    rw [ended_transaction] at hget
    exact (hdead left hget).2
  · rw [ended_worker rows transaction hj] at hget
    exact h.numbered j left hget

theorem RowsKept.rollback (hdead : w.Dead transaction) :
    (w.ended i (w.rows.rollback i) transaction).RowsKept := by
  have hview : ∀ j, ((w.rows.rollback i).view j) = w.rows.view j ∨
      (w.rows.rollback i).view j = w.rows.committed := by
    intro j
    by_cases hj : j = i
    · subst hj
      exact .inr view_rollback
    · exact .inl (view_rollback_other hj)
  constructor
  · exact h.locked.rollback i
  · intro j id group hget
    change ((w.rows.rollback i).view j).get? id = some group at hget
    rcases hview j with hsame | hsame
    · rw [hsame] at hget
      exact h.kept j id group hget
    · rw [hsame] at hget
      exact h.committedKept id group hget
  · exact h.committedKept
  · intro j id group hget
    change ((w.rows.rollback i).view j).get? id = some group at hget
    rcases hview j with hsame | hsame
    · rw [hsame] at hget
      exact h.drawn j id group hget
    · rw [hsame] at hget
      exact h.committedDrawn id group hget
  · exact h.committedDrawn
  · exact h.createdDrawn
  · intro j id group hown hnone hid
    change (Function.update w.rows.own i Dict.empty j).get? id = some group at hown
    by_cases hj : j = i
    · subst hj
      rw [Function.update_self] at hown
      cases hown
    · rw [Function.update_of_ne hj] at hown
      exact released_lock hj (h.pending j id group hown hnone hid)
  · intro j
    change Exclusive w.createdIds ((w.rows.rollback i).view j)
    rcases hview j with hsame | hsame
    · rw [hsame]
      exact h.exclusive j
    · rw [hsame]
      exact h.committedExclusive
  · exact h.committedExclusive
  · exact h.ended_numbered _ hdead
  · intro j key reservation hget
    rw [ended_reservations] at hget
    exact h.reservedBefore j key reservation hget
  · intro j key reservation hget hlive
    by_cases hj : j = i
    · subst hj
      rw [hdead.live (ended_transaction _ _)] at hlive
      cases hlive
    · rw [ended_worker _ _ hj] at hget hlive
      obtain ⟨hlock, hclear⟩ := h.reserved j key reservation hget hlive
      refine ⟨released_lock hj hlock, ?_⟩
      intro hempty
      change Clear w.createdIds ((w.rows.rollback i).view j) key
      rw [view_rollback_other hj]
      exact hclear hempty

theorem RowsKept.seen_by_other (hj : j ≠ i) (hid : id ∈ w.createdIds)
    (hget : ((w.rows.commit i).view j).get? id = some group) :
    (∃ earlier, (w.rows.view j).get? id = some earlier ∧ earlier.Continues group) ∨
      w.scopeLocks.get? group.scopeKey = some i := by
  rw [get?_view_commit_other hj] at hget
  cases hown : (w.rows.own j).get? id with
  | some row =>
    rw [hown] at hget
    obtain rfl := Option.some.inj hget
    exact .inl ⟨row, get?_view_of_own hown, .refl row⟩
  | none =>
    rw [hown, Option.none_or] at hget
    rw [get?_view_of_committed hown]
    cases hcommitted : w.rows.committed.get? id with
    | some before =>
      left
      refine ⟨before, rfl, ?_⟩
      cases hwritten : (w.rows.own i).get? id with
      | some row =>
        rw [get?_view_of_own hwritten] at hget
        obtain rfl := Option.some.inj hget
        exact h.locked.continued i id row before hwritten hcommitted
      | none =>
        rw [get?_view_of_committed hwritten, hcommitted] at hget
        obtain rfl := Option.some.inj hget
        exact .refl before
    | none =>
      right
      rw [get?_view, hcommitted, Option.or_none] at hget
      exact h.pending i id group hget hcommitted hid

theorem RowsKept.seen_by_committer (hj : j ≠ i) (hid : id ∈ w.createdIds)
    (hget : ((w.rows.commit i).view j).get? id = some group) :
    (∃ earlier, (w.rows.view i).get? id = some earlier ∧ earlier.Continues group) ∨
      w.scopeLocks.get? group.scopeKey = some j := by
  rw [get?_view_commit_other hj] at hget
  cases hown : (w.rows.own j).get? id with
  | some row =>
    rw [hown] at hget
    obtain rfl := Option.some.inj hget
    cases hcommitted : w.rows.committed.get? id with
    | some before =>
      left
      refine ⟨before, ?_, h.locked.continued j id row before hown hcommitted⟩
      rw [get?_view_of_committed (h.locked.own_none hown (Ne.symm hj))]
      exact hcommitted
    | none => exact .inr (h.pending j id row hown hcommitted hid)
  | none =>
    rw [hown, Option.none_or] at hget
    exact .inl ⟨group, hget, .refl group⟩

theorem RowsKept.commit_exclusive (hj : j ≠ i) :
    Exclusive w.createdIds ((w.rows.commit i).view j) := by
  intro p hp q hq first second hfirst hsecond hactive hactive' hsame
  have htwo : w.scopeLocks.get? first.scopeKey = some i →
      w.scopeLocks.get? first.scopeKey = some j → p = q := by
    intro hi hj'
    exact absurd (Option.some.inj (hj'.symm.trans hi)) hj
  have hview : ∀ k, (∃ earlier, (w.rows.view k).get? p = some earlier ∧ earlier.Continues first) →
      (∃ earlier, (w.rows.view k).get? q = some earlier ∧ earlier.Continues second) → p = q := by
    rintro k ⟨earlier, hget, hcontinues⟩ ⟨earlier', hget', hcontinues'⟩
    apply h.exclusive k p hp q hq earlier earlier' hget hget' (hcontinues.active hactive)
      (hcontinues'.active hactive')
    rw [← hcontinues.scopeKey, ← hcontinues'.scopeKey, hsame]
  rcases h.seen_by_other hj hp hfirst with hfirstOther | hlock
  · rcases h.seen_by_other hj hq hsecond with hsecondOther | hlock
    · exact hview j hfirstOther hsecondOther
    · rw [← hsame] at hlock
      rcases h.seen_by_committer hj hp hfirst with hfirstHere | hlock'
      · rcases h.seen_by_committer hj hq hsecond with hsecondHere | hlock'
        · exact hview i hfirstHere hsecondHere
        · rw [← hsame] at hlock'
          exact htwo hlock hlock'
      · exact htwo hlock hlock'
  · rcases h.seen_by_committer hj hp hfirst with hfirstHere | hlock'
    · rcases h.seen_by_committer hj hq hsecond with hsecondHere | hlock'
      · exact hview i hfirstHere hsecondHere
      · rw [← hsame] at hlock'
        exact htwo hlock hlock'
    · exact htwo hlock hlock'

theorem RowsKept.commit_clear (hj : j ≠ i) (hlock : w.scopeLocks.get? key = some j)
    (hclear : Clear w.createdIds (w.rows.view j) key) :
    Clear w.createdIds ((w.rows.commit i).view j) key := by
  intro p hp group hget hkey hactive
  rcases h.seen_by_other hj hp hget with ⟨earlier, hearlier, hcontinues⟩ | hlock'
  · exact hclear p hp earlier hearlier (hcontinues.scopeKey.symm.trans hkey)
      (hcontinues.active hactive)
  · rw [hkey, hlock] at hlock'
    exact hj (Option.some.inj hlock')

theorem RowsKept.commit (i : ℕ) :
    (w.ended i (w.rows.commit i) none).RowsKept := by
  have hdead : w.Dead none := by
    intro left hleft
    cases hleft
  have hview : ∀ j id group, ((w.rows.commit i).view j).get? id = some group →
      (w.rows.view j).get? id = some group ∨ (w.rows.view i).get? id = some group := by
    intro j id group hget
    by_cases hj : j = i
    · subst hj
      rw [view_commit] at hget
      exact .inl hget
    · rw [get?_view_commit_other hj] at hget
      cases hown : (w.rows.own j).get? id with
      | some row =>
        rw [hown] at hget
        exact .inl ((get?_view_of_own hown).trans hget)
      | none =>
        rw [hown, Option.none_or] at hget
        exact .inr hget
  constructor
  · exact h.locked.commit i
  · intro j id group hget
    rcases hview j id group hget with hget | hget
    · exact h.kept j id group hget
    · exact h.kept i id group hget
  · exact h.kept i
  · intro j id group hget
    rcases hview j id group hget with hget | hget
    · exact h.drawn j id group hget
    · exact h.drawn i id group hget
  · exact h.drawn i
  · exact h.createdDrawn
  · intro j id group hown hnone hid
    change (Function.update w.rows.own i Dict.empty j).get? id = some group at hown
    change (w.rows.view i).get? id = none at hnone
    by_cases hj : j = i
    · subst hj
      rw [Function.update_self] at hown
      cases hown
    · rw [Function.update_of_ne hj] at hown
      rw [get?_view, Option.or_eq_none_iff] at hnone
      exact released_lock hj (h.pending j id group hown hnone.2 hid)
  · intro j
    change Exclusive w.createdIds ((w.rows.commit i).view j)
    by_cases hj : j = i
    · subst hj
      rw [view_commit]
      exact h.exclusive j
    · exact h.commit_exclusive hj
  · exact h.exclusive i
  · exact h.ended_numbered _ hdead
  · intro j key reservation hget
    rw [ended_reservations] at hget
    exact h.reservedBefore j key reservation hget
  · intro j key reservation hget hlive
    by_cases hj : j = i
    · subst hj
      rw [hdead.live (ended_transaction _ _)] at hlive
      cases hlive
    · rw [ended_worker _ _ hj] at hget hlive
      obtain ⟨hlock, hclear⟩ := h.reserved j key reservation hget hlive
      exact ⟨released_lock hj hlock, fun hempty => h.commit_clear hj hlock (hclear hempty)⟩

/-- A transaction writes only rows whose locks it holds. -/
theorem RowsKept.step {action : WatchAction} (hstep : w.step action = some t) : t.RowsKept := by
  cases action with
  | inspect i scope => exact h.inspect hstep
  | create i inspection creation now => exact h.create hstep
  | operate i others operation => exact h.operate hstep
  | commit i =>
    obtain ⟨_, -, rfl⟩ := Option.map_eq_some_iff.mp hstep
    exact h.commit i
  | rollback i =>
    obtain ⟨_, -, rfl⟩ := Option.map_eq_some_iff.mp hstep
    apply h.rollback
    intro left hleft
    cases hleft
  | fail i deactivated =>
    obtain ⟨id, hlive, rfl⟩ := Option.map_eq_some_iff.mp hstep
    apply h.rollback
    intro left hleft
    cases hleft
    refine ⟨?_, h.numbered i { id := id, state := .live } (live_eq_some hlive)⟩
    cases deactivated with
    | true => exact TransactionState.noConfusion
    | false => exact TransactionState.noConfusion

end Ends

/-- In whatever way the open transactions end, the proposals of the seam that are active are
of different scopes. -/
theorem RowsKept.viewOf_exclusive (h : w.RowsKept) (sessions : List ℕ) :
    Exclusive w.createdIds (w.rows.viewOf sessions) := by
  intro p hp q hq first second hfirst hsecond hactive hactive' hsame
  have hview : ∀ i earlier earlier', (w.rows.view i).get? p = some earlier →
      earlier.Continues first → (w.rows.view i).get? q = some earlier' →
      earlier'.Continues second → p = q := by
    intro i earlier earlier' hget hcontinues hget' hcontinues'
    apply h.exclusive i p hp q hq earlier earlier' hget hget' (hcontinues.active hactive)
      (hcontinues'.active hactive')
    rw [← hcontinues.scopeKey, ← hcontinues'.scopeKey, hsame]
  rcases of_get?_viewOf hfirst with ⟨i, hi, hown⟩ | ⟨hcommitted, hnone⟩
  · rcases of_get?_viewOf hsecond with ⟨j, hj, hown'⟩ | ⟨hcommitted', hnone'⟩
    · by_cases hij : j = i
      · subst hij
        exact hview j first second (get?_view_of_own hown) (.refl _)
          (get?_view_of_own hown') (.refl _)
      · -- The two rows are of different transactions: both cannot be pending in one scope.
        cases hbefore : w.rows.committed.get? q with
        | some before =>
          have hnotOwn := h.locked.own_none hown' (Ne.symm hij)
          exact hview i first before (get?_view_of_own hown) (.refl _)
            ((get?_view_of_committed hnotOwn).trans hbefore)
            (h.locked.continued j q second before hown' hbefore)
        | none =>
          have hlock := h.pending j q second hown' hbefore hq
          cases hbefore' : w.rows.committed.get? p with
          | some before =>
            have hnotOwn := h.locked.own_none hown hij
            exact hview j before second
              ((get?_view_of_committed hnotOwn).trans hbefore')
              (h.locked.continued i p first before hown hbefore')
              (get?_view_of_own hown') (.refl _)
          | none =>
            have hlock' := h.pending i p first hown hbefore' hp
            rw [hsame, hlock] at hlock'
            exact absurd (Option.some.inj hlock') hij
    · exact hview i first second (get?_view_of_own hown) (.refl _)
        ((get?_view_of_committed (hnone' i hi)).trans hcommitted') (.refl _)
  · rcases of_get?_viewOf hsecond with ⟨j, hj, hown'⟩ | ⟨hcommitted', hnone'⟩
    · exact hview j first second
        ((get?_view_of_committed (hnone j hj)).trans hcommitted) (.refl _)
        (get?_view_of_own hown') (.refl _)
    · exact h.committedExclusive p hp q hq first second hcommitted hcommitted' hactive hactive'
        hsame

/-- What the seam guarantees. The record of an attempt names the token that authorized it and
the transaction it was made in; `viewOf` is what is there once some of the open transactions
have committed. -/
structure WatchSound (w : WatchWorld) : Prop where
  once : (w.attempts.map (·.token)).Nodup
  sameTransaction : ∀ attempt ∈ w.attempts, ∃ issue ∈ w.issued,
    IssuedFor issue attempt.token attempt.transaction attempt.key ∧
      issue.inspection.activeGroups = []
  succeeded : ∀ attempt ∈ w.created, attempt ∈ w.attempts
  exclusive : ∀ sessions, ∀ first ∈ w.created, ∀ second ∈ w.created, ∀ group other,
    (w.rows.viewOf sessions).get? first.proposalId = some group →
    (w.rows.viewOf sessions).get? second.proposalId = some other →
    group.Active → other.Active → group.scopeKey = other.scopeKey →
    first.proposalId = second.proposalId

/-- In every run of any workers an inspection authorizes one creation at most, in its own
transaction and with the scope found free, and no two active proposals of the seam are of one
scope. -/
theorem watch_creation_is_exclusive (h : Reachable Start step w) : WatchSound w := by
  have htokens : w.TokensKept :=
    invariant (fun _ => TokensKept.start) (fun _ _ _ hkept _ => hkept.step) h
  have hrows : w.RowsKept :=
    invariant (fun _ => RowsKept.start) (fun _ _ _ hkept _ => hkept.step) h
  constructor
  · exact htokens.once
  · exact htokens.attempted
  · exact htokens.created
  · intro sessions first hfirst second hsecond group other hgroup hother hactive hactive' hsame
    exact hrows.viewOf_exclusive sessions _ (List.mem_map_of_mem hfirst) _
      (List.mem_map_of_mem hsecond) group other hgroup hother hactive hactive' hsame

def scopeOfBuy : WatchToOrderScope where
  symbol := "005930"
  market := "equity_kr"
  accountMode := "toss_live"
  brokerAccountId := none
  action := "place"

def createBuy (worker token : ℕ) (proposalId : ProposalId) : WatchAction :=
  .create worker
    { scope := scopeOfBuy
      lockAcquired := true
      activeGroups := []
      reservationToken := some token }
    { proposalId
      symbol := "005930"
      market := "equity_kr"
      accountMode := "toss_live"
      side := "buy"
      orderType := "limit"
      rungs := [⟨0, "buy", 1, some 70000, none⟩] }
    (seconds 1700000000)

/-- The second worker is turned away while the first one creates, then finds the scope taken. -/
theorem watch_creation_is_exclusive_two_workers :
    ∃ w, Reachable Start step w ∧ WatchSound w ∧
      w.created = [⟨0, 0, scopeOfBuy.toScopeKey, "a"⟩] ∧
      w.issued.map (fun issue => (issue.inspection.lockAcquired,
        issue.inspection.activeGroups.length)) = [(true, 0), (false, 0), (true, 1)] := by
  obtain ⟨w, hrun, hends⟩ := (Option.any_eq_true _ _).mp
    (show ((run step {} [.inspect 0 scopeOfBuy, .inspect 1 scopeOfBuy, createBuy 0 0 "a",
        .commit 0, .inspect 1 scopeOfBuy]).any fun w =>
        decide (w.created = [⟨0, 0, scopeOfBuy.toScopeKey, "a"⟩]) &&
        decide (w.issued.map (fun issue => (issue.inspection.lockAcquired,
          issue.inspection.activeGroups.length)) = [(true, 0), (false, 0), (true, 1)])) = true by
        decide +kernel)
  rw [Bool.and_eq_true, decide_eq_true_eq, decide_eq_true_eq] at hends
  have hstart : Start {} := by
    refine ⟨Dict.empty, ?_, rfl⟩
    intro id group hget
    cases hget
  have hreach := reachable_of_run hstart hrun
  exact ⟨w, hreach, watch_creation_is_exclusive hreach, hends⟩

end WatchWorld

end KAssetTrader.Proposals
