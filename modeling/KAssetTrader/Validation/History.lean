import KAssetTrader.Validation.Service

/-!
The history of a validation. Every transition extends those before it, so the sequence
numbers have no gap and the identity never changes; every row answers the request of the
call that appended it.
-/

namespace KAssetTrader.Validation

open ValidationState

variable {event : PaperValidationStateTransition}

section Lawful

variable {events : List PaperValidationStateTransition}

structure Extends (events : List PaperValidationStateTransition)
    (event : PaperValidationStateTransition) : Prop where
  sequence : event.sequence = events.length + 1
  prior : event.priorState = events.getLast?.map (·.newState)
  legal : decideTransition event.priorState event.newState = none
  identity : ∀ last, events.getLast? = some last → last.identity = event.identity

inductive Lawful : List PaperValidationStateTransition → Prop
  | nil : Lawful []
  | snoc {events : List PaperValidationStateTransition}
      {event : PaperValidationStateTransition} :
      Lawful events → Extends events event → Lawful (events ++ [event])

variable (h : Lawful events)
include h

theorem Lawful.sequences :
    events.map (·.sequence) = List.range' 1 events.length := by
  induction h with
  | nil => rfl
  | @snoc events event _ hnext ih =>
    rw [List.map_append, ih, List.length_append, List.length_singleton, List.range'_concat,
      List.map_singleton, hnext.sequence]
    congr 2
    omega

theorem Lawful.last_sequence (hlast : events.getLast? = some event) :
    event.sequence = events.length := by
  cases h with
  | nil => cases hlast
  | snoc _ hnext =>
    rw [List.getLast?_concat] at hlast
    cases hlast
    rw [hnext.sequence, List.length_append, List.length_singleton]

theorem Lawful.latest : events.argmax (·.sequence) = events.getLast? := by
  induction h with
  | nil => rfl
  | @snoc events event hlawful hnext ih =>
    rw [List.argmax_concat, ih, List.getLast?_concat]
    cases hlast : events.getLast? with
    | none => rfl
    | some last =>
      have hbelow : last.sequence < event.sequence := by
        rw [hlawful.last_sequence hlast, hnext.sequence]
        exact Nat.lt_succ_self _
      exact if_pos hbelow

theorem Lawful.identity {last : PaperValidationStateTransition}
    (hlast : events.getLast? = some last) : ∀ event ∈ events, event.identity = last.identity := by
  induction h generalizing last with
  | nil => cases hlast
  | @snoc events event hlawful hnext ih =>
    rw [List.getLast?_concat] at hlast
    cases hlast
    intro row hrow
    rw [List.mem_append, List.mem_singleton] at hrow
    rcases hrow with hrow | rfl
    · cases hend : events.getLast? with
      | none =>
        rw [List.getLast?_eq_none_iff.mp hend] at hrow
        cases hrow
      | some before => exact (ih hend row hrow).trans (hnext.identity before hend)
    · rfl

theorem Lawful.extends_before {before after : List PaperValidationStateTransition}
    (heq : events = before ++ event :: after) :
    Extends before event := by
  induction h generalizing after with
  | nil => simp at heq
  | @snoc events last hlawful hnext ih =>
    rcases List.eq_nil_or_concat after with rfl | ⟨rest, final, rfl⟩
    · obtain ⟨rfl, hsame⟩ := List.append_inj' heq rfl
      rw [← (List.cons.inj hsame).1]
      exact hnext
    · have hsplit : events ++ [last] = (before ++ event :: rest) ++ [final] := by
        simpa using heq
      exact ih (List.append_inj' hsplit rfl).1

end Lawful

variable {row : AuditRow}

section Streams

variable {rows : List AuditRow} {validationId : String}

theorem mem_stream :
    event ∈ stream rows validationId ↔
      AuditRow.transition event ∈ rows ∧ event.identity.validationId = validationId := by
  simp only [stream, List.mem_filterMap]
  constructor
  · rintro ⟨row, hrow, hevent⟩
    cases row with
    | transition found =>
      simp only at hevent
      split at hevent
      next hid =>
        cases hevent
        exact ⟨hrow, hid⟩
      · cases hevent
    | hypothesis found => cases hevent
    | review found => cases hevent
  · rintro ⟨hrow, hid⟩
    exact ⟨_, hrow, if_pos hid⟩

theorem stream_append (added : List AuditRow) :
    stream (rows ++ added) validationId = stream rows validationId ++ stream added validationId :=
  List.filterMap_append

theorem stream_append_other {added : List AuditRow}
    (h : ∀ row ∈ added, row.columns.identity.validationId ≠ validationId) :
    stream (rows ++ added) validationId = stream rows validationId := by
  have hnone : stream added validationId = [] := by
    rw [List.eq_nil_iff_forall_not_mem]
    intro event hevent
    obtain ⟨hmem, hid⟩ := mem_stream.mp hevent
    exact h _ hmem hid
  rw [stream_append, hnone, List.append_nil]

theorem latest_mem (h : latest rows validationId = some event) :
    event ∈ stream rows validationId := List.argmax_mem h

theorem identityMatches_iff {identity : ValidationIdentity}
    (hid : event.identity.validationId = identity.validationId) :
    identityMatches event identity = true ↔ event.identity = identity := by
  obtain ⟨_, _, _, _, _, _, _, _, _, _, _⟩ := identity
  rw [identityMatches, decide_eq_true_eq]
  constructor
  · intro h
    cases hidentity : event.identity
    simp_all
  · intro h
    simp [h]

end Streams

variable {other : AuditRow} {request : Request}

structure Earned (event : PaperValidationStateTransition) : Prop where
  promoted : event.newState = promoted →
    ∃ confirmation, event.call = .confirmPromotion confirmation
  gated : event.newState = promotionEligible → ∃ evidence,
    event.frozen.promotionEligibility = some evidence ∧
      evidence.deterministicGatePassed = true ∧ 30 ≤ evidence.resolvedNegativeClassCount ∧
      ∀ id ∈ evidence.evidenceIds, id ∈ event.evidenceIds

/-- A row answers the request of the call that appended it. -/
structure AuditRow.Kept (row : AuditRow) : Prop where
  asked : ∃ request, row.columns.call.request = some request ∧
    row.columns.requestHash = (request, row.columns.actor) ∧ row.Matches request
  admitted : admission row.columns.call row.columns.actor = none
  earned : ∀ event, row = .transition event → Earned event

structure AuditKept (rows : List AuditRow) : Prop where
  kept : ∀ row ∈ rows, row.Kept
  keys : rows.Pairwise fun row other => ∀ request, ¬ (row.Matches request ∧ other.Matches request)
  lawful : ∀ validationId, Lawful (stream rows validationId)

variable {rows : List AuditRow}

theorem AuditKept.unique (h : AuditKept rows) (hrow : row ∈ rows) (hother : other ∈ rows)
    (hmatch : row.Matches request) (hsame : other.Matches request) :
    row = other := by
  by_contra hne
  have hsymm : Std.Symm fun row other : AuditRow =>
      ∀ request, ¬ (row.Matches request ∧ other.Matches request) :=
    ⟨fun _ _ hxy request hboth => hxy request hboth.symm⟩
  exact h.keys.forall hrow hother hne request ⟨hmatch, hsame⟩

theorem AuditRow.Matches.congr (hmatch : row.Matches request) (hsame : other.Matches request)
    {request' : Request} (h : row.Matches request') : other.Matches request' := by
  obtain ⟨htable, hid, hkey⟩ := hmatch
  obtain ⟨htable', hid', hkey'⟩ := hsame
  obtain ⟨htable'', hid'', hkey''⟩ := h
  refine ⟨?_, hid'.trans (hid.symm.trans hid''), hkey'.trans (hkey.symm.trans hkey'')⟩
  cases row <;> cases other <;> cases request <;> cases request' <;>
    simp_all [AuditRow.sameTable]

theorem byIdempotency_some (h : byIdempotency rows request = some row) :
    row ∈ rows ∧ row.Matches request :=
  ⟨List.mem_of_find?_eq_some h, by simpa using List.find?_some h⟩

theorem byIdempotency_none (h : byIdempotency rows request = none) :
    ∀ row ∈ rows, ¬ row.Matches request := by
  intro row hrow hmatch
  exact List.find?_eq_none.mp h row hrow (decide_eq_true hmatch)

/-- A row with a new key that continues its stream keeps the trail. -/
theorem AuditKept.append (h : AuditKept rows) (hrow : row.Kept)
    (hkey : ∀ request, row.Matches request → ∀ other ∈ rows, ¬ other.Matches request)
    (hnext : ∀ event, row = .transition event → Extends (stream rows event.identity.validationId)
      event) : AuditKept (rows ++ [row]) := by
  refine ⟨?_, ?_, fun validationId => ?_⟩
  · intro other hother
    rw [List.mem_append, List.mem_singleton] at hother
    rcases hother with hother | rfl
    · exact h.kept other hother
    · exact hrow
  · rw [List.pairwise_append]
    refine ⟨h.keys, List.pairwise_singleton _ _, fun other hother new hnew request hboth => ?_⟩
    obtain rfl := List.mem_singleton.mp hnew
    exact hkey request hboth.2 other hother hboth.1
  · cases row with
    | transition event =>
      by_cases hid : event.identity.validationId = validationId
      · obtain rfl := hid
        have hsingle : stream [AuditRow.transition event] event.identity.validationId =
            [event] := by
          simp [stream]
        rw [stream_append, hsingle]
        exact (h.lawful _).snoc (hnext event rfl)
      · rw [stream_append_other]
        · exact h.lawful validationId
        · intro other hother
          obtain rfl := List.mem_singleton.mp hother
          exact hid
    | hypothesis _ =>
      rw [stream_append]
      exact (List.append_nil (stream rows validationId)).symm ▸ h.lawful validationId
    | review _ =>
      rw [stream_append]
      exact (List.append_nil (stream rows validationId)).symm ▸ h.lawful validationId

end KAssetTrader.Validation
