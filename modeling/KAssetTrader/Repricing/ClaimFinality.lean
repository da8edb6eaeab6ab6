import KAssetTrader.Repricing.ClaimStore

/-!
Claims are exclusive, fenced and final, in every run in which no claim that a call of
`try_claim` has read as lapsed is finalised or released before that call expires it. In
the other runs the call goes on to its insert over a fire that has been resolved.
-/

namespace KAssetTrader.Repricing

open Transition

variable {w w' : ClaimWorld}

variable {id : ℕ} {row : ClaimRow} {rows : Claims} {handle : ClaimHandle}

theorem step_ended {action : ClaimAction} (h : Kept w) (hstep : w.step action = some w')
    (hrow : w.rows.get? id = some row) (hended : row.state ≠ .started) :
    w'.rows.get? id = some row := by
  cases action with
  | select tick call =>
    simp only [ClaimWorld.step] at hstep
    split at hstep
    · split at hstep <;> (cases hstep; exact hrow)
    · cases hstep
  | expire tick =>
    simp only [ClaimWorld.step] at hstep
    split at hstep
    · split at hstep
      · cases hstep
      · cases hstep
        exact hrow
    · cases hstep
  | insert tick ownerToken =>
    simp only [ClaimWorld.step] at hstep
    split at hstep
    next call generation expired hcall =>
      split at hstep
      · cases hstep
      · split at hstep
        · split at hstep
          · cases hstep
            exact hrow
          next rows hcommit =>
            cases hstep
            have hwrites := (ownView_spec (h.calls tick _ hcall)).1
            rw [(insertRow_ok_iff.mp hcommit).2, Dict.get?_set,
              if_neg (Nat.ne_of_lt (h.table.ids id row hrow))]
            exact hwrites.ended hrow hended
        · cases hstep
    · cases hstep
  | crash tick =>
    cases hstep
    exact hrow
  | finalise handle outcome now =>
    simp only [ClaimWorld.step] at hstep
    split at hstep
    · split at hstep
      · cases hstep
        exact hrow
      next rows hfinalise =>
        cases hstep
        exact (finalise_writes hfinalise).ended hrow hended
    · cases hstep
  | release handle =>
    simp only [ClaimWorld.step] at hstep
    split at hstep
    · split at hstep
      · cases hstep
        exact hrow
      next rows hrelease =>
        cases hstep
        exact (release_writes hrelease).ended hrow hended
    · cases hstep
  | sweep now =>
    simp only [ClaimWorld.step] at hstep
    split at hstep
    · cases hstep
      exact sweepExpired_writes.ended hrow hended
    · cases hstep

/-- A handle writes the row that was inserted for it, while that row is started, and
nothing else; at any other time the call raises. -/
structure Fenced (rows : Claims) (id : ℕ) (handle : ClaimHandle) : Prop where
  finalises : ∀ outcome now t, finalise rows handle outcome now = .ok t →
    (∃ row, rows.get? id = some row ∧ row.state = .started ∧
      t.get? id = some (row.finalise outcome now)) ∧ ∀ j, j ≠ id → t.get? j = rows.get? j
  releases : ∀ t, release rows handle = .ok t →
    (∃ row, rows.get? id = some row ∧ row.state = .started ∧ t.get? id = none) ∧
      ∀ j, j ≠ id → t.get? j = rows.get? j
  raises : (¬ ∃ row, rows.get? id = some row ∧ row.state = .started) →
    (∀ outcome now, finalise rows handle outcome now = .error .notHeld) ∧
      release rows handle = .error .notHeld

theorem Names.heldBy_iff {id j : ℕ} (h : Names rows id handle) (hrow : rows.get? j = some row) :
    row.heldBy handle = true ↔ j = id ∧ row.state = .started := by
  rw [Repricing.heldBy_iff, ← h.iff j row hrow]
  constructor
  · rintro ⟨hevent, hgeneration, htoken, hstarted⟩
    exact ⟨⟨hevent, hgeneration, htoken⟩, hstarted⟩
  · rintro ⟨⟨hevent, hgeneration, htoken⟩, hstarted⟩
    exact ⟨hevent, hgeneration, htoken, hstarted⟩

theorem Names.fenced (h : Names rows id handle) :
    Fenced rows id handle := by
  have hheld : (∃ j row, rows.get? j = some row ∧ row.heldBy handle = true) ↔
      ∃ row, rows.get? id = some row ∧ row.state = .started := by
    constructor
    · rintro ⟨j, row, hrow, hheld⟩
      obtain ⟨rfl, hstarted⟩ := (h.heldBy_iff hrow).mp hheld
      exact ⟨row, hrow, hstarted⟩
    · rintro ⟨row, hrow, hstarted⟩
      exact ⟨id, row, hrow, (h.heldBy_iff hrow).mpr ⟨rfl, hstarted⟩⟩
  have hframe : ∀ {t}, Writes (fun _ row => row.heldBy handle) rows t →
      ∀ j, j ≠ id → t.get? j = rows.get? j := by
    intro t hw j hj
    cases hrow : rows.get? j with
    | none =>
      rw [Option.eq_none_iff_forall_ne_some]
      intro r hr
      obtain ⟨row, hrow'⟩ := hw.noNew j r hr
      rw [hrow] at hrow'
      cases hrow'
    | some row =>
      apply hw.frame j row hrow
      cases hb : row.heldBy handle with
      | false => rfl
      | true => exact absurd ((h.heldBy_iff hrow).mp hb).1 hj
  constructor
  · intro outcome now t hok
    obtain ⟨hexists, rfl⟩ := finalise_ok_iff.mp hok
    obtain ⟨row, hrow, hstarted⟩ := hheld.mp hexists
    refine ⟨⟨row, hrow, hstarted, ?_⟩, hframe (finalise_writes hok)⟩
    rw [Dict.get?_mapValues, hrow, Option.map_some,
      if_pos ((h.heldBy_iff hrow).mpr ⟨rfl, hstarted⟩)]
  · intro t hok
    obtain ⟨hexists, rfl⟩ := release_ok_iff.mp hok
    obtain ⟨row, hrow, hstarted⟩ := hheld.mp hexists
    refine ⟨⟨row, hrow, hstarted, ?_⟩, hframe (release_writes hok)⟩
    rw [Option.eq_none_iff_forall_ne_some]
    intro r hr
    obtain ⟨hr', hnot⟩ := (rows.get?_filter_eq_some).mp hr
    rw [(h.heldBy_iff hr').mpr ⟨rfl, by rw [Option.some.inj (hr'.symm.trans hrow)]; exact hstarted⟩]
      at hnot
    cases hnot
  · intro hnone
    rw [← hheld, ← any_heldBy_iff] at hnone
    exact ⟨fun outcome now => if_neg hnone, if_neg hnone⟩

/-- Claims are exclusive and final: at most one claim of an event and one of a symbol is
started, a handle is the key to its own row only, and a fire that has been resolved or
quarantined keeps that claim, as it is, as long as the system runs, with no other claim
of the event started beside it. -/
structure ClaimsSound (w : ClaimWorld) : Prop where
  oneEvent : ∀ id row j r, w.rows.get? id = some row → w.rows.get? j = some r →
    row.state = .started → r.state = .started → row.eventUuid = r.eventUuid → id = j
  oneSymbol : ∀ id row j r, w.rows.get? id = some row → w.rows.get? j = some r →
    row.state = .started → r.state = .started → row.symbol = r.symbol → id = j
  fenced : ∀ id handle, (id, handle) ∈ w.issued → Fenced w.rows id handle
  alone : ∀ id row j r, w.rows.get? id = some row → row.state.nonReclaimable = true →
    w.rows.get? j = some r → r.eventUuid = row.eventUuid → r.state ≠ .started
  stays : ∀ action w', w.step action = some w' → ∀ id row, w.rows.get? id = some row →
    row.state.nonReclaimable = true → w'.rows.get? id = some row

theorem Kept.start (h : ClaimStart w) : Kept w := by
  rw [h]
  constructor
  · constructor <;> (intro id row; intros; contradiction)
  · intro tick progress hcall
    cases hcall
  · intro tick tick' progress progress' id hcall
    cases hcall
  · intro id handle hmem
    cases hmem
  · intro id handle hmem
    cases hmem

/-- In every run in which the lapsed claims that calls of `try_claim` have read are not
finalised or released before those calls come to expire them, claims are exclusive and
final. -/
theorem claims_exclusive_and_final
    (h : ReachableVia ClaimStart ClaimWorld.step ExpiryFindsClaim w) : ClaimsSound w := by
  have hkept : Kept w := invariant (fun _ => Kept.start) (fun _ _ _ hs hok => hs.step hok) h
  constructor
  · intro id row j r hrow hr hstarted hstarted' hevent
    rcases hkept.table.others_expired hrow hstarted hr hevent.symm with heq | hexpired
    · exact heq.symm
    · rw [hstarted'] at hexpired
      cases hexpired
  · exact hkept.table.oneSymbol
  · exact fun id handle hmem => (hkept.named id handle hmem).fenced
  · intro id row j r hrow hfinal hr hevent hstarted
    rcases hkept.table.others_expired hr hstarted hrow hevent.symm with rfl | hexpired
    · cases hrow.symm.trans hr
      rw [hstarted] at hfinal
      cases hfinal
    · rw [hexpired] at hfinal
      cases hfinal
  · intro action w' hstep id row hrow hfinal
    refine step_ended hkept hstep hrow fun hstarted => ?_
    rw [hstarted] at hfinal
    cases hfinal

def samsungFire (now : Instant) (claimedBy : String) : ClaimCall where
  eventUuid := 7
  symbol := "005930"
  market := "kr"
  claimedBy := claimedBy
  now := now
  lease := 1800

def sampleOutcome : SessionOutcome where
  state := .proposalCreated
  proposalId := some "P-1"
  complete := by decide

/-- A claim lapses, the next tick rolls it over and resolves the fire; the late owner of
the first generation is refused. -/
def rolledOver : List ClaimAction :=
  [.select 1 (samsungFire 0 "first"), .insert 1 100, .select 2 (samsungFire 1800 "second"),
    .expire 2, .insert 2 200, .finalise ⟨7, "005930", 1, 100⟩ sampleOutcome 1801,
    .finalise ⟨7, "005930", 2, 200⟩ sampleOutcome 1802]

/-- A claim that expires unprocessed, and the next generation of its trigger. -/
theorem claims_exclusive_and_final_after_rollover :
    ∃ w, run ClaimWorld.step {} rolledOver = some w ∧ ClaimsSound w ∧
      (w.rows.get? 1).map (·.state) = some .expiredUnprocessed ∧
      (w.rows.get? 2).map (·.state) = some .proposalCreated := by
  obtain ⟨w, hw, hstates⟩ :
      ∃ w, run ClaimWorld.step {} rolledOver = some w ∧
        (w.rows.get? 1).map (·.state) = some .expiredUnprocessed ∧
        (w.rows.get? 2).map (·.state) = some .proposalCreated :=
    exists_run (by decide +kernel)
  have halong : Along ClaimWorld.step ExpiryFindsClaim {} rolledOver := by decide +kernel
  have hstart : ReachableVia ClaimStart ClaimWorld.step ExpiryFindsClaim {} := .start rfl
  exact ⟨w, hw, claims_exclusive_and_final (hstart.run halong hw), hstates⟩

/-- The owner of a lapsed claim resolves the fire between the select of the next tick and
its update. The update matches nothing, and the tick starts the next generation all the
same. -/
def lateFinalise : List ClaimAction :=
  [.select 1 (samsungFire 0 "first"), .insert 1 100, .select 2 (samsungFire 1800 "second"),
    .finalise ⟨7, "005930", 1, 100⟩ sampleOutcome 1801, .expire 2, .insert 2 200]

/-- The expiry of a finalised claim opens a second generation. -/
theorem resolved_fire_claimed_again :
    ∃ w, Reachable ClaimStart ClaimWorld.step w ∧ ¬ ClaimsSound w := by
  have hrun : ((run ClaimWorld.step {} lateFinalise).any fun w =>
      (w.rows.get? 1).any fun row => (w.rows.get? 2).any fun r =>
        decide (row.state.nonReclaimable = true ∧ r.eventUuid = row.eventUuid ∧
          r.state = .started)) = true := by decide +kernel
  obtain ⟨w, hw, hrows⟩ := (Option.any_eq_true _ _).mp hrun
  obtain ⟨row, hrow, hr⟩ := (Option.any_eq_true _ _).mp hrows
  obtain ⟨r, hr, hboth⟩ := (Option.any_eq_true _ _).mp hr
  obtain ⟨hfinal, hevent, hstarted⟩ := of_decide_eq_true hboth
  refine ⟨w, reachable_of_run rfl hw, fun hsound => ?_⟩
  exact hsound.alone 1 row 2 r hrow hfinal hr hevent hstarted

end KAssetTrader.Repricing
