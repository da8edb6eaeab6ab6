import KAssetTrader.Validation.Statements

/-!
The audit trail of paper validations over every interleaving of their transactions. The
lock is held from before the last reads of a call to the end of its transaction, so the
rows that a commit adds still fit the rows that are committed.
-/

namespace KAssetTrader.Validation

open Transition ValidationState

section Steps

variable {w w' : ValidationSystem} {id : ℕ} {call : Call}

structure SystemKept (w : ValidationSystem) : Prop where
  rows : AuditKept w.rows
  calls : ∀ id call, w.calls.get? id = some call → CallKept w id call

theorem no_rows {P : AuditRow → Prop} : ∀ row ∈ ([] : List AuditRow), P row :=
  List.forall_mem_nil _

theorem SystemKept.update (h : SystemKept w) (id : ℕ) (hrows : w'.rows = w.rows)
    (hlocks : ∀ other validationId, w.Holds other validationId → w'.Holds other validationId)
    (hcalls : w'.calls = w.calls.set id call) (hcall : CallKept w' id call) : SystemKept w' := by
  constructor
  · rw [hrows]
    exact h.rows
  · intro other found hfound
    rw [hcalls] at hfound
    rcases Dict.of_get?_set hfound with ⟨rfl, rfl⟩ | ⟨_, hfound⟩
    · exact hcall
    · refine (h.calls other found hfound).frame [] ?_ no_rows (hlocks other)
      rw [hrows, List.append_nil]

theorem SystemKept.release (h : SystemKept w) (id : ℕ) (added : List AuditRow)
    (hrows : AuditKept (w.rows ++ added))
    (hadded : ∀ row ∈ added, w.Holds id row.columns.identity.validationId) :
    SystemKept (w.release id (w.rows ++ added)) := by
  constructor
  · exact hrows
  · intro other found hfound
    obtain ⟨hother, hfound⟩ := Dict.of_get?_erase hfound
    refine (h.calls other found hfound).frame _ rfl ?_ ?_
    · rintro row hrow validationId hholds rfl
      exact hother (Option.some.inj (hholds.symm.trans (hadded row hrow)))
    · intro validationId hholds
      exact w.locks.get?_filter_eq_some.mpr ⟨hholds, decide_eq_true hother⟩

/-- Every call keeps the rows, the records and the audit trail together. -/
theorem SystemKept.step {action : ValidationAction} (h : SystemKept w)
    (hstep : w.step action = some w') : SystemKept w' := by
  cases action with
  | begin id actor op =>
    simp only [ValidationSystem.step] at hstep
    split at hstep
    · cases hstep
    · cases hstep
      refine h.update id rfl (fun _ _ hholds => hholds) rfl ?_
      exact (begun_kept id h.rows actor op).frame []
        (List.append_nil _).symm no_rows fun _ hholds => hholds
  | read id =>
    obtain ⟨before, hbefore, hnext⟩ := Option.bind_eq_some_iff.mp hstep
    obtain ⟨after, hread, rfl⟩ := Option.map_eq_some_iff.mp hnext
    refine h.update id rfl (fun _ _ hholds => hholds) rfl ?_
    exact (read_kept h.rows (h.calls id before hbefore) hread).frame []
      (List.append_nil _).symm no_rows fun _ hholds => hholds
  | stamp id answer =>
    simp only [ValidationSystem.step] at hstep
    split at hstep
    next before hbefore =>
      split at hstep
      next hphase =>
        cases hstep
        refine h.update id rfl (fun _ _ hholds => hholds) rfl ?_
        exact (stamp_kept (h.calls id before hbefore) hphase answer).frame []
          (List.append_nil _).symm no_rows fun _ hholds => hholds
      · cases hstep
    · cases hstep
  | lock id =>
    simp only [ValidationSystem.step] at hstep
    split at hstep
    next before hbefore =>
      split at hstep
      next identity stamps hphase =>
        split at hstep
        · cases hstep
        next hfree =>
          cases hstep
          have hcall := h.calls id before hbefore
          have hkept := hcall.phase
          rw [PhaseKept, hphase] at hkept
          obtain ⟨hfresh, hsame, hgated⟩ := hkept
          refine h.update id rfl (fun other validationId hholds => ?_) rfl ?_
          · have hne : validationId ≠ before.op.validationId := by
              rintro rfl
              rw [hholds] at hfree
              exact hfree rfl
            rw [ValidationSystem.Holds, Dict.get?_set, if_neg hne]
            exact hholds
          · refine ⟨hcall.began, ⟨hfresh.unstaged, hfresh.admitted, hfresh.unmatched⟩,
              hsame, hgated, ?_⟩
            simp [ValidationSystem.Holds, Dict.get?_set]
      · cases hstep
    · cases hstep
  | commit id =>
    simp only [ValidationSystem.step] at hstep
    split at hstep
    next before hbefore =>
      split at hstep
      next reply hphase =>
        cases hstep
        have hkept := (h.calls id before hbefore).phase
        rw [PhaseKept, hphase] at hkept
        cases hstaged : before.staged with
        | none =>
          refine h.release id _ ?_ no_rows
          rw [Option.toList_none, List.append_nil]
          exact h.rows
        | some row =>
          obtain ⟨_, hrow, hsame, hholds, hkey, hnext⟩ := hkept.staged row hstaged
          refine h.release id _ (h.rows.append hrow hkey hnext) fun other hother => ?_
          obtain rfl := List.mem_singleton.mp hother
          rw [hsame]
          exact hholds
      · cases hstep
    · cases hstep
  | rollback id =>
    simp only [ValidationSystem.step] at hstep
    split at hstep
    next before hbefore =>
      cases hstep
      have hend := h.release id []
        (by rw [List.append_nil]; exact h.rows) no_rows
      rw [List.append_nil] at hend
      exact hend
    · cases hstep

end Steps

def ValidationStart (w : ValidationSystem) : Prop := w = {}

structure AuditSound (w : ValidationSystem) : Prop where
  sequences : ∀ validationId, (stream w.rows validationId).map (·.sequence) =
    List.range' 1 (stream w.rows validationId).length
  legal : ∀ validationId before event after,
    stream w.rows validationId = before ++ event :: after →
      event.priorState = before.getLast?.map (·.newState) ∧
        decideTransition event.priorState event.newState = none
  draft : ∀ validationId event, (stream w.rows validationId).head? = some event →
    event.newState = draft
  identity : ∀ validationId, ∀ event ∈ stream w.rows validationId,
    ∀ other ∈ stream w.rows validationId, event.identity = other.identity
  promoted : ∀ validationId, ∀ event ∈ stream w.rows validationId, event.newState = promoted →
    event.priorState = some promotionEligible ∧
      ∃ confirmation, event.call = .confirmPromotion confirmation
  eligible : ∀ validationId, ∀ event ∈ stream w.rows validationId,
    event.newState = promotionEligible → ∃ evidence,
      event.frozen.promotionEligibility = some evidence ∧
        evidence.deterministicGatePassed = true ∧ 30 ≤ evidence.resolvedNegativeClassCount ∧
        ∀ evidenceId ∈ evidence.evidenceIds, evidenceId ∈ event.evidenceIds
  repeated : ∀ row ∈ w.rows,
    ((w.begun row.columns.actor row.columns.call).start w.rows).phase = .done (.row row)
  replayed : ∀ id call reply, w.calls.get? id = some call → call.phase = .done reply →
    ∀ request, call.op.request = some request → ∀ row ∈ call.began, row.Matches request →
      call.staged = none ∧ (call.Repeats row → reply = .row row) ∧
        (¬ call.Repeats row → ∃ reason, reply = .refused reason)
  authorized : ∀ id call authorization, w.calls.get? id = some call →
    call.phase = .done (.authorization authorization) →
      call.op = .authorizeOrderSubmission authorization.identity ∧
        ∃ event, latest w.rows authorization.identity.validationId = some event ∧
          event.identity = authorization.identity ∧ event.newState = authorization.state ∧
          (event.newState = paperActive ∨ event.newState = promotionEligible)

variable {w : ValidationSystem}

theorem SystemKept.start (h : ValidationStart w) : SystemKept w := by
  rw [h]
  refine ⟨⟨no_rows, .nil, fun _ => .nil⟩, fun id call hcall => ?_⟩
  cases hcall

/-- A committed request answers its row at the first read of a repetition. -/
theorem AuditKept.repeated (h : AuditKept w.rows) {row : AuditRow} (hrow : row ∈ w.rows) :
    ((w.begun row.columns.actor row.columns.call).start w.rows).phase = .done (.row row) := by
  obtain ⟨request, hasked, hhash, hmatch⟩ := (h.kept row hrow).asked
  have hadmitted := (h.kept row hrow).admitted
  have hfound : byIdempotency w.rows request = some row := by
    cases hfind : byIdempotency w.rows request with
    | none => exact absurd hmatch (byIdempotency_none hfind row hrow)
    | some found =>
      obtain ⟨hmem, hsame⟩ := byIdempotency_some hfind
      rw [h.unique hmem hrow hsame hmatch]
  simp only [ValidationSystem.begun, hadmitted, Call.start, hasked, hfound, Call.replay, hhash,
    if_true]

/-- What every step keeps makes the trail sound. -/
theorem SystemKept.sound (h : SystemKept w) : AuditSound w := by
  have hlawful := h.rows.lawful
  have hearned : ∀ {validationId event}, event ∈ stream w.rows validationId → Earned event := by
    intro validationId event hevent
    exact (h.rows.kept _ (mem_stream.mp hevent).1).earned event rfl
  refine ⟨fun v => (hlawful v).sequences, ?_, ?_, ?_, ?_, ?_, fun _ => h.rows.repeated, ?_, ?_⟩
  · intro validationId before event after heq
    have hnext := (hlawful validationId).extends_before heq
    exact ⟨hnext.prior, hnext.legal⟩
  · intro validationId event hhead
    obtain ⟨rest, hrest⟩ := List.head?_eq_some_iff.mp hhead
    have hfirst := (hlawful validationId).extends_before (show _ = [] ++ event :: rest from hrest)
    have hlegal := hfirst.legal
    rw [hfirst.prior] at hlegal
    exact decideTransition_none.mp hlegal
  · intro validationId event hevent other hother
    cases hlast : (stream w.rows validationId).getLast? with
    | none =>
      rw [List.getLast?_eq_none_iff.mp hlast] at hevent
      cases hevent
    | some last =>
      have hsame := (hlawful validationId).identity hlast
      exact (hsame event hevent).trans (hsame other hother).symm
  · intro validationId event hevent hpromoted
    obtain ⟨before, after, heq⟩ := List.append_of_mem hevent
    have hlegal := ((hlawful validationId).extends_before heq).legal
    refine ⟨?_, (hearned hevent).promoted hpromoted⟩
    rw [hpromoted] at hlegal
    cases hprior : event.priorState with
    | none => rw [hprior] at hlegal; exact absurd (decideTransition_none.mp hlegal) nofun
    | some prior =>
      rw [hprior] at hlegal
      rw [promoted_prior (decideTransition_some hlegal)]
  · intro validationId event hevent
    exact (hearned hevent).gated
  · intro id call reply hcall hphase
    have hkept := (h.calls id call hcall).phase
    rw [PhaseKept, hphase] at hkept
    exact hkept.replayed
  · intro id call authorization hcall hphase
    have hkept := (h.calls id call hcall).phase
    rw [PhaseKept, hphase] at hkept
    obtain ⟨_, hop, event, hlatest, hidentity, hstate, hauthorizable⟩ :=
      hkept.authorized authorization rfl
    refine ⟨hop, event, hlatest, hidentity, hstate, ?_⟩
    rw [hstate]
    simpa [isOrderAuthorizable] using hauthorizable

/-- In every interleaving of transactions, the audit trail of each validation is a legal
history under one identity, a committed request is answered by its row for ever, and an
order is authorized only in the state that the trail is in. -/
theorem audit_trail_sound (h : Reachable ValidationStart ValidationSystem.step w) :
    AuditSound w :=
  SystemKept.sound (invariant (fun _ => SystemKept.start) (fun _ _ _ hkept _ => hkept.step) h)

def sampleIdentity : ValidationIdentity :=
  ⟨"V-1", 1, "e0", "S-1", "C-1", "e0", "c0", "s0", "g0", "p0", "i0"⟩

def sampleActor : ActorIdentity := ⟨"operator-1", .operator⟩

/-- What the providers answer, with evidence that opens the gate of a promotion. -/
def sampleStamps : Option Stamps :=
  some (⟨"B-1", "i0", some ⟨true, 30, ["E-1"]⟩⟩, ⟨"P-1", "p0"⟩)

def sampleAdvance (key : String) (prior : Option ValidationState) (target : ValidationState) :
    Operation :=
  .transition ⟨sampleIdentity, prior, target, key, "advance", "advance", []⟩

/-- Two calls register the validation at once under one key. The second one finds the row
of the first under the lock, and a later repetition finds it at its first read. -/
def registrations : List ValidationAction :=
  let register := sampleAdvance "draft" none draft
  [.begin 1 sampleActor register, .begin 2 sampleActor register, .read 1, .read 2,
    .stamp 1 sampleStamps, .stamp 2 sampleStamps, .lock 1, .read 1, .read 1, .commit 1, .lock 2,
    .read 2, .begin 3 sampleActor register, .read 3]

def advancing (op : Operation) : List ValidationAction :=
  [.begin 4 sampleActor op, .read 4, .stamp 4 sampleStamps, .lock 4, .read 4, .read 4, .commit 4]

/-- The validation becomes active, and an order of it is authorized. -/
def activation : List ValidationAction :=
  registrations ++ [.commit 2, .commit 3] ++
    advancing (sampleAdvance "offline" (some draft) offlineEligible) ++
    advancing (sampleAdvance "shadow" (some offlineEligible) shadowSoak) ++
    advancing (sampleAdvance "paper" (some shadowSoak) paperActive) ++
    [.begin 5 sampleActor (.authorizeOrderSubmission sampleIdentity), .read 5, .read 5,
      .stamp 5 sampleStamps, .lock 5, .read 5, .read 5]

def promotion : List ValidationAction :=
  activation ++ [.commit 5] ++
    advancing (sampleAdvance "eligible" (some paperActive) promotionEligible) ++
    advancing (.confirmPromotion ⟨sampleIdentity, "promoted", "confirmed", []⟩)

/-- Two registrations at once, an authorization, and the promotion: six rows. -/
theorem audit_trail_sound_of_promotion :
    (∃ w, run ValidationSystem.step {} activation = some w ∧
      (w.calls.get? 5).map (·.phase) = some (.done (.authorization
        ⟨sampleIdentity, paperActive, sampleActor, "B-1", "P-1"⟩)) ∧ AuditSound w) ∧
    ∃ w, run ValidationSystem.step {} promotion = some w ∧ w.rows.length = 6 ∧
      (latest w.rows "V-1").map (·.newState) = some promoted ∧ AuditSound w := by
  constructor
  · obtain ⟨w, hw, hcall⟩ :
        ∃ w, run ValidationSystem.step {} activation = some w ∧
          (w.calls.get? 5).map (·.phase) = some (.done (.authorization ⟨sampleIdentity,
            paperActive, sampleActor, "B-1", "P-1"⟩)) :=
      exists_run (by decide +kernel)
    exact ⟨w, hw, hcall, audit_trail_sound (reachable_of_run rfl hw)⟩
  · obtain ⟨w, hw, hrows, hstate⟩ :
        ∃ w, run ValidationSystem.step {} promotion = some w ∧ w.rows.length = 6 ∧
          (latest w.rows "V-1").map (·.newState) = some promoted :=
      exists_run (by decide +kernel)
    exact ⟨w, hw, hrows, hstate, audit_trail_sound (reachable_of_run rfl hw)⟩

end KAssetTrader.Validation
