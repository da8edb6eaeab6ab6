import KAssetTrader.Validation.History

/-!
What an open call can rely on at each of its statements. Before the lock it knows only
what was committed when it began. From the lock to the end of its transaction nobody
else appends to its validation, so what it reads under the lock stays true.
-/

namespace KAssetTrader.Validation

section Facts

def ValidationSystem.Holds (w : ValidationSystem) (id : ℕ) (validationId : String) : Prop :=
  w.locks.get? validationId = some id

def Call.Repeats (call : Call) (row : AuditRow) : Prop :=
  row.columns.call = call.op ∧ row.columns.actor = call.actor

/-- A call that has appended nothing, and whose key no row had when it began. -/
structure Call.Fresh (call : Call) : Prop where
  unstaged : call.staged = none
  admitted : admission call.op call.actor = none
  unmatched : ∀ request, call.op.request = some request → ∀ row ∈ call.began,
    ¬ row.Matches request

def Call.Gated (call : Call) (stamps : Stamps) : Prop :=
  call.target = some .promotionEligible → Call.promotionGate stamps.1 = none

structure UnderLock (w : ValidationSystem) (id : ℕ) (call : Call) (identity : ValidationIdentity)
    (stamps : Stamps) : Prop where
  fresh : call.Fresh
  sameStream : identity.validationId = call.op.validationId
  gated : call.Gated stamps
  holds : w.Holds id call.op.validationId

structure Finished (w : ValidationSystem) (id : ℕ) (call : Call) (reply : Reply) : Prop where
  replayed : ∀ request, call.op.request = some request → ∀ row ∈ call.began,
    row.Matches request → call.staged = none ∧ (call.Repeats row → reply = .row row) ∧
      (¬ call.Repeats row → ∃ reason, reply = .refused reason)
  returned : ∀ row, reply = .row row → call.Repeats row ∧ (call.staged = some row ∨ row ∈ w.rows)
  staged : ∀ row, call.staged = some row → reply = .row row ∧ row.Kept ∧
    row.columns.identity.validationId = call.op.validationId ∧
    w.Holds id call.op.validationId ∧
    (∀ request, row.Matches request → ∀ other ∈ w.rows, ¬ other.Matches request) ∧
    ∀ event, row = .transition event →
      Extends (stream w.rows event.identity.validationId) event
  authorized : ∀ authorization, reply = .authorization authorization →
    w.Holds id authorization.identity.validationId ∧
      call.op = .authorizeOrderSubmission authorization.identity ∧
      ∃ event, latest w.rows authorization.identity.validationId = some event ∧
        event.identity = authorization.identity ∧ event.newState = authorization.state ∧
        isOrderAuthorizable authorization.state = true

def PhaseKept (w : ValidationSystem) (id : ℕ) (call : Call) : Prop :=
  match call.phase with
  | .starting => call.staged = none ∧ admission call.op call.actor = none
  | .observing => call.Fresh
  | .stamping identity => call.Fresh ∧ identity.validationId = call.op.validationId
  | .locking identity stamps =>
    call.Fresh ∧ identity.validationId = call.op.validationId ∧ call.Gated stamps
  | .locked identity stamps => UnderLock w id call identity stamps
  | .appending identity stamps =>
    UnderLock w id call identity stamps ∧
      ∀ request, call.op.request = some request → ∀ row ∈ w.rows, ¬ row.Matches request
  | .done reply => Finished w id call reply

structure CallKept (w : ValidationSystem) (id : ℕ) (call : Call) : Prop where
  began : ∀ row ∈ call.began, row ∈ w.rows
  phase : PhaseKept w id call

variable {w w' : ValidationSystem} {id : ℕ} {call : Call} {added : List AuditRow}

/-- What another transaction does leaves a call as it was: it keeps its locks, and rows
are added only to validations that it has not locked. -/
theorem CallKept.frame (h : CallKept w id call) (added : List AuditRow)
    (hrows : w'.rows = w.rows ++ added)
    (hadded : ∀ row ∈ added, ∀ validationId, w.Holds id validationId →
      row.columns.identity.validationId ≠ validationId)
    (hlocks : ∀ validationId, w.Holds id validationId → w'.Holds id validationId) :
    CallKept w' id call := by
  have hmem : ∀ {row}, row ∈ w.rows → row ∈ w'.rows := by
    intro row hrow
    rw [hrows]
    exact List.mem_append_left _ hrow
  have hstream : ∀ {validationId}, w.Holds id validationId →
      stream w'.rows validationId = stream w.rows validationId := by
    intro validationId hholds
    rw [hrows]
    exact stream_append_other fun row hrow => hadded row hrow validationId hholds
  have hfree : ∀ {request : Request}, w.Holds id request.validationId →
      (∀ row ∈ w.rows, ¬ row.Matches request) → ∀ row ∈ w'.rows, ¬ row.Matches request := by
    intro request hholds hnone row hrow hmatch
    rw [hrows, List.mem_append] at hrow
    rcases hrow with hold | hnew
    · exact hnone row hold hmatch
    · exact hadded row hnew _ hholds hmatch.2.1
  have hunder : ∀ {identity stamps}, UnderLock w id call identity stamps →
      UnderLock w' id call identity stamps :=
    fun hkept => ⟨hkept.fresh, hkept.sameStream, hkept.gated, hlocks _ hkept.holds⟩
  refine ⟨fun row hrow => hmem (h.began row hrow), ?_⟩
  have hphase := h.phase
  unfold PhaseKept at hphase ⊢
  split at hphase
  · exact hphase
  · exact hphase
  · exact hphase
  · exact hphase
  · exact hunder hphase
  · refine ⟨hunder hphase.1, fun request hrequest => hfree ?_ (hphase.2 request hrequest)⟩
    rw [← call.op.validationId_request hrequest]
    exact hphase.1.holds
  · refine ⟨hphase.replayed, ?_, ?_, ?_⟩
    · intro row hreply
      obtain ⟨hrepeats, hstaged | hrow⟩ := hphase.returned row hreply
      · exact ⟨hrepeats, .inl hstaged⟩
      · exact ⟨hrepeats, .inr (hmem hrow)⟩
    · intro row hstaged
      obtain ⟨hreply, hkept, hsame, hholds, hkey, hnext⟩ := hphase.staged row hstaged
      refine ⟨hreply, hkept, hsame, hlocks _ hholds, ?_, ?_⟩
      · intro request hmatch
        refine hfree ?_ (hkey request hmatch)
        rw [← hmatch.2.1, hsame]
        exact hholds
      · intro event hevent
        obtain rfl := hevent
        have hstreamId : event.identity.validationId = call.op.validationId := hsame
        rw [hstream (hstreamId ▸ hholds)]
        exact hnext event rfl
    · intro authorization hreply
      obtain ⟨hholds, hop, event, hlatest, hidentity, hstate, hauthorizable⟩ :=
        hphase.authorized authorization hreply
      refine ⟨hlocks _ hholds, hop, event, ?_, hidentity, hstate, hauthorizable⟩
      rw [latest, hstream hholds]
      exact hlatest

end Facts

variable {w : ValidationSystem} {id : ℕ} {call : Call} {row : AuditRow} {request : Request}

theorem repeats_iff (hrow : row.Kept) (hmatch : row.Matches request)
    (hadmitted : admission call.op call.actor = none) (hrequest : call.op.request = some request) :
    call.Repeats row ↔ row.columns.requestHash = (request, call.actor) := by
  obtain ⟨asked, hasked, hhash, _⟩ := hrow.asked
  have hrowAdmitted := hrow.admitted
  constructor
  · rintro ⟨hcall, hactor⟩
    rw [hcall] at hasked
    cases hasked.symm.trans hrequest
    rw [hhash, hactor]
  · intro hsame
    obtain ⟨rfl, hactor⟩ := Prod.mk.inj (hhash.symm.trans hsame)
    exact ⟨op_of_request hrow.admitted hadmitted hasked hrequest, hactor⟩

theorem PhaseKept.done (reply : Reply) (hphase : call.phase = .done reply)
    (h : Finished w id call reply) : PhaseKept w id call := by
  rw [PhaseKept, hphase]
  exact h

theorem Finished.refuse {reason : ReasonCode} (hunstaged : call.staged = none)
    (hrepeats : ∀ request, call.op.request = some request → ∀ row ∈ call.began,
      row.Matches request → ¬ call.Repeats row) :
    Finished w id call (.refused reason) := by
  constructor
  · intro request hrequest row hrow hmatch
    exact ⟨hunstaged, fun hyes => absurd hyes (hrepeats request hrequest row hrow hmatch),
      fun _ => ⟨reason, rfl⟩⟩
  · intro row hreply
    cases hreply
  · intro row hstaged
    rw [hunstaged] at hstaged
    cases hstaged
  · intro authorization hreply
    cases hreply

theorem Call.Fresh.refuse (h : call.Fresh) (reason : ReasonCode) :
    PhaseKept w id (call.refuse reason) := by
  apply PhaseKept.done (.refused (call.op.raised reason)) rfl
  refine Finished.refuse h.unstaged ?_
  intro request hrequest row hrow hmatch
  exact absurd hmatch (h.unmatched request hrequest row hrow)

theorem replay_kept (hrows : AuditKept w.rows) (hbegan : ∀ row ∈ call.began, row ∈ w.rows)
    (hunstaged : call.staged = none) (hadmitted : admission call.op call.actor = none)
    (hrequest : call.op.request = some request) (hrow : row ∈ w.rows)
    (hmatch : row.Matches request) : PhaseKept w id (call.replay request row) := by
  have hrepeats := repeats_iff (hrows.kept row hrow) hmatch hadmitted hrequest
  have hsame : ∀ request', call.op.request = some request' → ∀ other ∈ call.began,
      other.Matches request' → other = row := by
    intro request' hrequest' other hother hmatch'
    cases hrequest.symm.trans hrequest'
    exact hrows.unique (hbegan other hother) hrow hmatch' hmatch
  unfold Call.replay
  split
  next hhash =>
    apply PhaseKept.done (.row row) rfl
    constructor
    · intro request' hrequest' other hother hmatch'
      obtain rfl := hsame request' hrequest' other hother hmatch'
      exact ⟨hunstaged, fun _ => rfl, fun hnot => absurd (hrepeats.mpr hhash) hnot⟩
    · intro other hreply
      obtain rfl := Reply.row.inj hreply
      exact ⟨hrepeats.mpr hhash, .inr hrow⟩
    · intro other hstaged
      exact absurd (hunstaged.symm.trans hstaged) nofun
    · intro authorization hreply
      cases hreply
  next hhash =>
    apply PhaseKept.done (.refused (call.op.raised .idempotencyConflict)) rfl
    refine Finished.refuse hunstaged ?_
    intro request' hrequest' other hother hmatch' hyes
    obtain rfl := hsame request' hrequest' other hother hmatch'
    exact hhash (hrepeats.mp hyes)

end KAssetTrader.Validation
