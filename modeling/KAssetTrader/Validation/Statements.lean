import KAssetTrader.Validation.Calls

/-!
The statements of a call, one lemma each. A statement reads the committed rows; the last
one, under the lock, appends a row that fits them or issues an authorization for the
state that it has just read.
-/

namespace KAssetTrader.Validation

open Call ValidationState

variable {w : ValidationSystem} {id : ℕ} {call : Call} {identity : ValidationIdentity}
  {stamps : Stamps}

theorem begun_kept (id : ℕ) (hrows : AuditKept w.rows) (actor : ActorIdentity) (op : Operation) :
    CallKept w id (w.begun actor op) := by
  unfold ValidationSystem.begun
  dsimp only
  split
  next hadmitted => exact ⟨fun _ hrow => hrow, rfl, hadmitted⟩
  next reason hrefused =>
    refine ⟨fun _ hrow => hrow, ?_⟩
    apply PhaseKept.done (.refused (op.raised reason)) rfl
    apply Finished.refuse rfl
    intro request hrequest row hrow hmatch hrepeats
    have hadmitted := (hrows.kept row hrow).admitted
    rw [hrepeats.1, hrepeats.2] at hadmitted
    exact absurd (hrefused.symm.trans hadmitted) nofun

theorem start_kept (hrows : AuditKept w.rows) (h : CallKept w id call)
    (hphase : call.phase = .starting) : CallKept w id (call.start w.rows) := by
  have hkept := h.phase
  rw [PhaseKept, hphase] at hkept
  obtain ⟨hunstaged, hadmitted⟩ := hkept
  unfold start
  split
  next hrequest =>
    refine ⟨h.began, hunstaged, hadmitted, fun request hsome => ?_⟩
    cases hrequest.symm.trans hsome
  next request hrequest =>
    split
    next row hfound =>
      obtain ⟨hrow, hmatch⟩ := byIdempotency_some hfound
      refine ⟨?_, replay_kept hrows h.began hunstaged hadmitted hrequest hrow hmatch⟩
      unfold replay
      split <;> exact h.began
    next hnone =>
      have hfresh : call.Fresh := by
        refine ⟨hunstaged, hadmitted, fun request' hrequest' row hrow => ?_⟩
        cases hrequest.symm.trans hrequest'
        exact byIdempotency_none hnone row (h.began row hrow)
      split
      · refine ⟨h.began, ⟨hfresh.unstaged, hfresh.admitted, hfresh.unmatched⟩, ?_⟩
        exact (call.op.validationId_request hrequest).symm
      · exact ⟨h.began, hfresh.unstaged, hfresh.admitted, hfresh.unmatched⟩

theorem observe_kept (h : CallKept w id call) (hphase : call.phase = .observing) :
    CallKept w id (call.observe w.rows) := by
  have hfresh : call.Fresh := by
    have hkept := h.phase
    rw [PhaseKept, hphase] at hkept
    exact hkept
  have hnext : ∀ identity : ValidationIdentity, identity.validationId = call.op.validationId →
      CallKept w id { call with phase := .stamping identity } := by
    intro identity hsame
    exact ⟨h.began, ⟨hfresh.unstaged, hfresh.admitted, hfresh.unmatched⟩, hsame⟩
  unfold observe
  split
  · exact ⟨h.began, hfresh.refuse _⟩
  next observed hlatest =>
    split
    next identity hop =>
      split
      · exact ⟨h.began, hfresh.refuse _⟩
      · split
        · exact ⟨h.began, hfresh.refuse _⟩
        · refine hnext identity ?_
          rw [hop]
          rfl
    · exact hnext observed.identity (mem_stream.mp (latest_mem hlatest)).2

theorem stamp_kept (h : CallKept w id call) (hphase : call.phase = .stamping identity)
    (answer : Option Stamps) : CallKept w id (call.stamp identity answer) := by
  have hkept := h.phase
  rw [PhaseKept, hphase] at hkept
  obtain ⟨hfresh, hsame⟩ := hkept
  have hnext : ∀ stamps : Stamps, call.Gated stamps →
      CallKept w id { call with phase := .locking identity stamps } := by
    intro stamps hgated
    exact ⟨h.began, ⟨hfresh.unstaged, hfresh.admitted, hfresh.unmatched⟩, hsame, hgated⟩
  unfold stamp
  split
  · exact ⟨h.began, hfresh.refuse _⟩
  next frozen policy =>
    split
    · exact ⟨h.began, hfresh.refuse _⟩
    · split
      · split
        · exact ⟨h.began, hfresh.refuse _⟩
        next hgate => exact hnext _ fun _ => hgate
      next htarget => exact hnext _ fun hyes => absurd hyes htarget

theorem recheck_kept (hrows : AuditKept w.rows) (h : CallKept w id call)
    (hphase : call.phase = .locked identity stamps) :
    CallKept w id (call.recheck identity stamps w.rows) := by
  have hkept := h.phase
  rw [PhaseKept, hphase] at hkept
  have hunder : UnderLock w id { call with phase := .appending identity stamps } identity
      stamps := by
    refine ⟨⟨hkept.fresh.unstaged, hkept.fresh.admitted, hkept.fresh.unmatched⟩, ?_, ?_, ?_⟩
    · exact hkept.sameStream
    · exact hkept.gated
    · exact hkept.holds
  unfold recheck
  split
  next hrequest =>
    refine ⟨h.began, hunder, fun request hsome => ?_⟩
    cases hrequest.symm.trans hsome
  next request hrequest =>
    split
    next row hfound =>
      obtain ⟨hrow, hmatch⟩ := byIdempotency_some hfound
      refine ⟨?_, replay_kept hrows h.began hkept.fresh.unstaged hkept.fresh.admitted hrequest
        hrow hmatch⟩
      unfold replay
      split <;> exact h.began
    next hnone =>
      refine ⟨h.began, hunder, fun request' hrequest' => ?_⟩
      cases hrequest.symm.trans hrequest'
      exact byIdempotency_none hnone

theorem append_kept {row : AuditRow} {request : Request} (h : CallKept w id call)
    (hunder : UnderLock w id call identity stamps) (hrequest : call.op.request = some request)
    (hfree : ∀ row ∈ w.rows, ¬ row.Matches request)
    (hrepeats : call.Repeats row) (hhash : row.columns.requestHash = (request, call.actor))
    (hmatch : row.Matches request) (hearned : ∀ event, row = .transition event → Earned event)
    (hnext : ∀ event, row = .transition event →
      Extends (stream w.rows event.identity.validationId) event) :
    CallKept w id (call.append row) := by
  refine ⟨h.began, ?_⟩
  apply PhaseKept.done (.row row) rfl
  constructor
  · intro request' hrequest' other hother hmatch'
    exact absurd hmatch' (hunder.fresh.unmatched request' hrequest' other hother)
  · intro other hreply
    obtain rfl := Reply.row.inj hreply
    exact ⟨hrepeats, .inl rfl⟩
  · intro other hstaged
    cases hstaged
    refine ⟨rfl, ⟨⟨request, ?_, ?_, hmatch⟩, ?_, hearned⟩, ?_, hunder.holds, ?_, hnext⟩
    · rw [hrepeats.1]
      exact hrequest
    · rw [hhash, hrepeats.2]
    · rw [hrepeats.1, hrepeats.2]
      exact hunder.fresh.admitted
    · rw [hmatch.2.1]
      exact (call.op.validationId_request hrequest).symm
    · intro request' hmatch' other hother hboth
      exact hfree other hother (hmatch'.congr hboth hmatch)
  · intro authorization hreply
    cases hreply

theorem promotionGate_none {frozen : FrozenInputStamp} (h : Call.promotionGate frozen = none) :
    ∃ evidence, frozen.promotionEligibility = some evidence ∧
      evidence.deterministicGatePassed = true ∧ 30 ≤ evidence.resolvedNegativeClassCount := by
  unfold promotionGate at h
  split at h
  · cases h
  next evidence hevidence =>
    split at h
    · cases h
    next hpassed =>
      split at h
      · cases h
      next hcount =>
        exact ⟨evidence, hevidence, Bool.not_eq_false _ ▸ hpassed, not_lt.mp hcount⟩

theorem appendTransition_kept {request : TransitionRequest} (hrows : AuditKept w.rows)
    (h : CallKept w id call) (hunder : UnderLock w id call identity stamps)
    (hrequest : call.op.request = some (.transition request))
    (hfree : ∀ row ∈ w.rows, ¬ row.Matches (.transition request)) :
    CallKept w id (call.appendTransition request stamps w.rows) := by
  have hlawful := hrows.lawful request.identity.validationId
  have hlatest : latest w.rows request.identity.validationId =
      (stream w.rows request.identity.validationId).getLast? := hlawful.latest
  unfold appendTransition
  dsimp only
  split
  · exact ⟨h.began, hunder.fresh.refuse _⟩
  next hidentity =>
  split
  · exact ⟨h.began, hunder.fresh.refuse _⟩
  split
  · exact ⟨h.began, hunder.fresh.refuse _⟩
  next hlegal =>
  refine append_kept h hunder hrequest hfree ⟨rfl, rfl⟩ rfl ⟨rfl, rfl, rfl⟩ ?_ ?_
  · rintro _ ⟨⟩
    constructor
    · intro hpromoted
      have htarget : request.targetState = promoted := hpromoted
      have hadmitted := hunder.fresh.admitted
      change ∃ confirmation, call.op = _
      cases hop : call.op with
      | transition own =>
        rw [hop] at hrequest hadmitted
        cases hrequest
        exact absurd htarget (admission_transition hadmitted)
      | confirmPromotion confirmation => exact ⟨confirmation, rfl⟩
      | appendHypothesis _ => rw [hop] at hrequest; cases hrequest
      | appendPostmortemReview _ => rw [hop] at hrequest; cases hrequest
      | authorizeOrderSubmission _ => rw [hop] at hrequest; cases hrequest
    · intro heligible
      have htarget : request.targetState = promotionEligible := heligible
      have hgate := hunder.gated (by rw [target, hrequest]; exact congrArg some htarget)
      obtain ⟨evidence, hevidence, hpassed, hcount⟩ := promotionGate_none hgate
      refine ⟨evidence, hevidence, hpassed, hcount, fun evidenceId hmem => ?_⟩
      simp only [transitionRow, htarget, if_true, hevidence, Option.map_some,
        Option.getD_some, List.mem_reverse, List.mem_dedup, List.mem_append]
      exact .inr hmem
  · rintro _ ⟨⟩
    change Extends (stream w.rows request.identity.validationId) _
    constructor
    · simp only [transitionRow]
      rw [hlatest]
      cases hlast : (stream w.rows request.identity.validationId).getLast? with
      | none => rw [List.getLast?_eq_none_iff.mp hlast]; rfl
      | some last => exact congrArg (· + 1) (hlawful.last_sequence hlast)
    · rw [← hlatest]
      rfl
    · exact hlegal
    · intro last hlast
      rw [← hlatest] at hlast
      have hsame := (mem_stream.mp (latest_mem hlast)).2
      refine (identityMatches_iff hsame).mp ?_
      rw [hlast] at hidentity
      simpa using hidentity

theorem appendNarrative_kept {request : Request} {build : AuditColumns → AuditRow}
    (h : CallKept w id call) (hunder : UnderLock w id call identity stamps)
    (hrequest : call.op.request = some request)
    (hfree : ∀ row ∈ w.rows, ¬ row.Matches request)
    (hcolumns : ∀ columns, (build columns).columns = columns)
    (htable : ∀ columns, (build columns).sameTable request = true)
    (hnarrative : ∀ columns event, build columns ≠ .transition event) :
    CallKept w id (call.appendNarrative request identity w.rows build) := by
  unfold appendNarrative
  split
  · exact ⟨h.began, hunder.fresh.refuse _⟩
  split
  · exact ⟨h.began, hunder.fresh.refuse _⟩
  refine append_kept h hunder hrequest hfree ?_ ?_ ?_ ?_ ?_
  · rw [Call.Repeats, hcolumns]
    exact ⟨rfl, rfl⟩
  · rw [hcolumns]
  · refine ⟨htable _, ?_, ?_⟩
    · rw [hcolumns]
      exact hunder.sameStream.trans (call.op.validationId_request hrequest)
    · rw [hcolumns]
  · intro event hevent
    exact absurd hevent (hnarrative _ event)
  · intro event hevent
    exact absurd hevent (hnarrative _ event)

theorem authorize_kept {identity' : ValidationIdentity} (h : CallKept w id call)
    (hunder : UnderLock w id call identity' stamps)
    (hop : call.op = .authorizeOrderSubmission identity) :
    CallKept w id (call.authorize identity stamps w.rows) := by
  unfold authorize
  split
  · exact ⟨h.began, hunder.fresh.refuse _⟩
  next event hlatest =>
  split
  · exact ⟨h.began, hunder.fresh.refuse _⟩
  next hidentity =>
  split
  · exact ⟨h.began, hunder.fresh.refuse _⟩
  next hauthorizable =>
  refine ⟨h.began, ?_⟩
  refine PhaseKept.done _ rfl ?_
  constructor
  · intro request hrequest
    have hnone : call.op.request = some request := hrequest
    rw [hop] at hnone
    cases hnone
  · intro row hreply
    cases hreply
  · intro row hstaged
    have hnone : call.staged = some row := hstaged
    rw [hunder.fresh.unstaged] at hnone
    cases hnone
  · intro authorization hreply
    obtain rfl := Reply.authorization.inj hreply
    have hholds := hunder.holds
    rw [hop] at hholds
    refine ⟨hholds, hop, event, hlatest, ?_, rfl, ?_⟩
    · have hsame := (mem_stream.mp (latest_mem hlatest)).2
      exact (identityMatches_iff hsame).mp (Bool.not_eq_false _ ▸ hidentity)
    · exact Bool.not_eq_false _ ▸ hauthorizable

theorem finish_kept (hrows : AuditKept w.rows) (h : CallKept w id call)
    (hphase : call.phase = .appending identity stamps) :
    CallKept w id (call.finish identity stamps w.rows) := by
  have hkept := h.phase
  rw [PhaseKept, hphase] at hkept
  obtain ⟨hunder, hfree⟩ := hkept
  unfold finish
  split
  next request hop =>
    have hrequest : call.op.request = some (.transition request) := by rw [hop]; rfl
    exact appendTransition_kept hrows h hunder hrequest (hfree _ hrequest)
  next confirmation hop =>
    have hrequest : call.op.request = some (.transition confirmation.request) := by
      rw [hop]
      rfl
    exact appendTransition_kept hrows h hunder hrequest (hfree _ hrequest)
  next request hop =>
    have hrequest : call.op.request = some (.hypothesis request) := by rw [hop]; rfl
    exact appendNarrative_kept h hunder hrequest (hfree _ hrequest) (fun _ => rfl)
      (fun _ => rfl) (by rintro _ _ ⟨⟩)
  next request hop =>
    have hrequest : call.op.request = some (.review request) := by rw [hop]; rfl
    exact appendNarrative_kept h hunder hrequest (hfree _ hrequest) (fun _ => rfl)
      (fun _ => rfl) (by rintro _ _ ⟨⟩)
  next own hop => exact authorize_kept h hunder hop

theorem read_kept {call' : Call} (hrows : AuditKept w.rows) (h : CallKept w id call)
    (hread : call.read w.rows = some call') : CallKept w id call' := by
  unfold Call.read at hread
  split at hread
  next hphase =>
    cases hread
    exact start_kept hrows h hphase
  next hphase =>
    cases hread
    exact observe_kept h hphase
  next hphase =>
    cases hread
    exact recheck_kept hrows h hphase
  next hphase =>
    cases hread
    exact finish_kept hrows h hphase
  · cases hread

end KAssetTrader.Validation
