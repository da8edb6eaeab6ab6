import KAssetTrader.Library.CodePoints
import KAssetTrader.Proposals.StateMachine

/-!
The sweep that closes rungs whose broker order is gone. The verdict on a rung is read from the
rows of the ledger that match it: rows that are still open are set aside, and the others have
to imply one and the same state. It does not depend on the order of the rows.
-/

namespace KAssetTrader.Proposals.RestingSweep

open Checked CodePoints

inductive RungVerdict where
  | transition
  | noEvidence
  | conflict
  deriving DecidableEq

structure LedgerEvidence where
  ledgerId : ℤ
  status : Text
  deriving DecidableEq

structure RungCandidate where
  state : String
  brokerOrderId : Option String
  idempotencyKey : Option String
  correlationId : Option String

structure SweepDecision where
  verdict : RungVerdict
  reasonCode : String
  targetState : Option RungState := none
  evidence : List LedgerEvidence
  ownershipConflict : Option String

def ledgerOpenStatuses : List Text := ["accepted", "pending", "partial"].map ofString

def ledgerStatusToRungTerminal : List (Text × RungState) :=
  [(ofString "filled", .filled), (ofString "cancelled", .cancelled),
    (ofString "canceled", .cancelled), (ofString "expired", .expired),
    (ofString "rejected", .expired)]

/-- `_is_terminal_status` -/
def LedgerEvidence.terminal (e : LedgerEvidence) : Bool :=
  lowerAscii (strip e.status) ∉ ledgerOpenStatuses

def LedgerEvidence.target? (e : LedgerEvidence) : Option RungState :=
  ledgerStatusToRungTerminal.lookup (lowerAscii (strip e.status))

def rungState? (value : String) : Option RungState :=
  [.draft, .pendingApproval, .revalidating, .needsReconfirm, .approved, .submitting, .acked,
    .resting, .partiallyFilled, .unverified, .filled, .cancelled, .expired, .rejected, .voided,
    .voidedLocalStale, .superseded].find? fun state : RungState => state.value = value

/-- Some key can match a row of the ledger. -/
def RungCandidate.hasKey (candidate : RungCandidate) : Bool :=
  [candidate.brokerOrderId, candidate.idempotencyKey, candidate.correlationId].any fun key =>
    key.any (· ≠ "")

/-- What the terminal rows of the ledger say together. -/
inductive LedgerReading where
  | stillOpen
  | unmapped
  | disagrees
  | target (state : RungState)
  deriving DecidableEq

def readLedger (evidence : List LedgerEvidence) : LedgerReading :=
  match (evidence.filter LedgerEvidence.terminal).mapM LedgerEvidence.target? with
  | none => .unmapped
  | some [] => .stillOpen
  | some (target :: rest) => if rest.any (· ≠ target) then .disagrees else .target target

/-- `decide`, of `classify_rung`: no verdict closes a rung to which a row was refused. -/
def decideRung (evidence : List LedgerEvidence) (ownershipConflict : Option String)
    (verdict : RungVerdict) (reasonCode : String) (targetState : Option RungState) :
    SweepDecision :=
  if verdict = .transition ∧ ownershipConflict ≠ none then
    { verdict := .conflict, reasonCode := "ownership_conflict_with_partial_evidence"
      evidence, ownershipConflict }
  else { verdict, reasonCode, targetState, evidence, ownershipConflict }

def classifyRung (candidate : RungCandidate) (evidence : List LedgerEvidence)
    (ownershipConflict : Option String) : SweepDecision :=
  let decide := decideRung evidence ownershipConflict
  match rungState? candidate.state with
  | none => decide .conflict "unknown_rung_state" none
  | some state =>
    if state.Terminal then decide .noEvidence "rung_already_terminal" none
    else if ¬ candidate.hasKey then decide .noEvidence "no_evidence_keys" none
    else if evidence = [] then decide .noEvidence "no_ledger_row" none
    else
      match readLedger evidence with
      | .stillOpen => decide .noEvidence "ledger_still_open" none
      | .unmapped => decide .conflict "unmapped_ledger_status" none
      | .disagrees => decide .conflict "ledger_evidence_disagrees" none
      | .target target =>
        if target = state then decide .noEvidence "already_in_target_state" target
        else if ¬ state.Allows target then
          decide .conflict "transition_not_permitted" target
        else decide .transition "terminal_broker_evidence" target

variable {evidence other : List LedgerEvidence}

section Reading

variable {target : RungState}

theorem mapM_target_cons {rows : List LedgerEvidence} {first : RungState} {rest : List RungState}
    (h : rows.mapM LedgerEvidence.target? = some (first :: rest)) :
    ∀ t, (∀ e ∈ rows, e.target? = some t) ↔ first = t ∧ ∀ s ∈ rest, s = t := by
  intro t
  rw [← List.forall_mem_cons (p := (· = t))]
  constructor
  · intro hall s hs
    obtain ⟨e, he, hs⟩ := (mem_of_mapM_eq_some h).mp hs
    exact Option.some.inj (hs.symm.trans (hall e he))
  · intro hall e he
    obtain ⟨s, hs⟩ := Option.isSome_iff_exists.mp
      (mapM_isSome_iff.mp (Option.isSome_of_eq_some h) e he)
    rw [hs, hall s ((mem_of_mapM_eq_some h).mpr ⟨e, he, hs⟩)]

theorem readLedger_eq_unmapped_iff :
    readLedger evidence = .unmapped ↔
      ∃ e ∈ evidence, e.terminal = true ∧ e.target? = none := by
  unfold readLedger
  cases hread : (evidence.filter LedgerEvidence.terminal).mapM LedgerEvidence.target? with
  | none =>
    refine iff_of_true rfl ?_
    by_contra hall
    push Not at hall
    have hsome : ((evidence.filter LedgerEvidence.terminal).mapM
        LedgerEvidence.target?).isSome := by
      rw [mapM_isSome_iff]
      intro e he
      obtain ⟨hmem, hterminal⟩ := List.mem_filter.mp he
      exact Option.isSome_iff_ne_none.mpr (hall e hmem hterminal)
    rw [hread] at hsome
    cases hsome
  | some found =>
    refine iff_of_false ?_ ?_
    · cases found with
      | nil => exact nofun
      | cons first rest =>
        dsimp only
        split_ifs <;> exact nofun
    · rintro ⟨e, he, hterminal, hnone⟩
      have hsome := (mapM_isSome_iff.mp (Option.isSome_of_eq_some hread)) e
        (List.mem_filter.mpr ⟨he, hterminal⟩)
      rw [hnone] at hsome
      cases hsome

theorem readLedger_eq_stillOpen_iff :
    readLedger evidence = .stillOpen ↔ ∀ e ∈ evidence, e.terminal = false := by
  have hrows : evidence.filter LedgerEvidence.terminal = [] ↔
      ∀ e ∈ evidence, e.terminal = false := by
    simp only [List.filter_eq_nil_iff, Bool.not_eq_true]
  rw [← hrows]
  unfold readLedger
  cases evidence.filter LedgerEvidence.terminal with
  | nil => exact iff_of_true rfl rfl
  | cons e rows =>
    refine iff_of_false ?_ (List.cons_ne_nil e rows)
    rw [List.mapM_cons]
    cases e.target? with
    | none => exact nofun
    | some first =>
      cases rows.mapM LedgerEvidence.target? with
      | none => exact nofun
      | some rest =>
        change (if rest.any (· ≠ first) then LedgerReading.disagrees else .target first) ≠ _
        split_ifs <;> exact nofun

theorem readLedger_eq_target_iff :
    readLedger evidence = .target target ↔ (∃ e ∈ evidence, e.terminal = true) ∧
      ∀ e ∈ evidence, e.terminal = true → e.target? = some target := by
  by_cases hopen : ∀ e ∈ evidence, e.terminal = false
  · rw [readLedger_eq_stillOpen_iff.mpr hopen]
    refine iff_of_false nofun ?_
    rintro ⟨⟨e, he, hterminal⟩, -⟩
    rw [hopen e he] at hterminal
    cases hterminal
  have hsome : ∃ e ∈ evidence, e.terminal = true := by
    simpa using hopen
  have hrows : (∀ e ∈ evidence, e.terminal = true → e.target? = some target) ↔
      ∀ e ∈ evidence.filter LedgerEvidence.terminal, e.target? = some target := by
    simp only [List.mem_filter, and_imp]
  rw [hrows, and_iff_right hsome]
  rw [← readLedger_eq_stillOpen_iff] at hopen
  unfold readLedger at hopen ⊢
  cases hread : (evidence.filter LedgerEvidence.terminal).mapM LedgerEvidence.target? with
  | none =>
    refine iff_of_false nofun fun hall => ?_
    have hread' := mapM_isSome_iff.mpr fun e he => Option.isSome_of_eq_some (hall e he)
    rw [hread] at hread'
    cases hread'
  | some found =>
    rw [hread] at hopen
    cases found with
    | nil => exact absurd rfl hopen
    | cons first rest =>
      rw [mapM_target_cons hread target]
      dsimp only
      split_ifs with hany
      · refine iff_of_false nofun ?_
        rintro ⟨rfl, hrest⟩
        obtain ⟨s, hs, hne⟩ := List.any_eq_true.mp hany
        exact of_decide_eq_true hne (hrest s hs)
      · simp only [List.any_eq_true, decide_eq_true_eq, not_exists, not_and, not_not] at hany
        rw [LedgerReading.target.injEq]
        constructor
        · rintro rfl
          exact ⟨rfl, hany⟩
        · exact fun h => h.1

theorem readLedger_congr (hsame : ∀ e, e ∈ evidence ↔ e ∈ other) :
    readLedger evidence = readLedger other := by
  have hreads : ∀ reading, reading ≠ .disagrees →
      (readLedger evidence = reading ↔ readLedger other = reading) := by
    intro reading hreading
    cases reading with
    | disagrees => exact absurd rfl hreading
    | stillOpen => simp only [readLedger_eq_stillOpen_iff, hsame]
    | unmapped => simp only [readLedger_eq_unmapped_iff, hsame]
    | target state => simp only [readLedger_eq_target_iff, hsame]
  by_cases hleft : readLedger evidence = .disagrees
  · by_cases hright : readLedger other = .disagrees
    · rw [hleft, hright]
    · exact (hreads _ hright).mpr rfl
  · exact ((hreads _ hleft).mp rfl).symm

end Reading

variable {candidate : RungCandidate} {ownershipConflict : Option String}

def Implies (candidate : RungCandidate) (evidence : List LedgerEvidence) (target : RungState) :
    Prop :=
  candidate.hasKey = true ∧
    (∃ state, rungState? candidate.state = some state ∧ state.Allows target) ∧
    (∃ e ∈ evidence, e.terminal = true) ∧
    ∀ e ∈ evidence, e.terminal = true → e.target? = some target

theorem decideRung_transition_iff {verdict : RungVerdict} {reasonCode : String}
    {target : Option RungState} :
    (decideRung evidence ownershipConflict verdict reasonCode target).verdict = .transition ↔
      verdict = .transition ∧ ownershipConflict = none := by
  unfold decideRung
  split_ifs with h
  · exact iff_of_false nofun fun hboth => h.2 hboth.2
  · simp only [ne_eq, not_and, not_not] at h
    exact ⟨fun hverdict => ⟨hverdict, h hverdict⟩, And.left⟩

theorem classifyRung_transition {target : RungState} (h : Implies candidate evidence target) :
    classifyRung candidate evidence ownershipConflict =
      decideRung evidence ownershipConflict .transition "terminal_broker_evidence"
        (some target) := by
  obtain ⟨hkey, ⟨state, hstate, hallows⟩, hsome, hall⟩ := h
  have hterminal : ¬ state.Terminal := fun ht => ht.not_allows hallows
  have hne : evidence ≠ [] := by
    rintro rfl
    obtain ⟨e, he, -⟩ := hsome
    cases he
  have hself : target ≠ state := by
    rintro rfl
    revert hallows
    cases target <;> decide
  unfold classifyRung
  simp only [hstate, hterminal, hkey, hne, hself, hallows,
    readLedger_eq_target_iff.mpr ⟨hsome, hall⟩, not_true_eq_false, if_false]

theorem classifyRung_transition_iff :
    (classifyRung candidate evidence ownershipConflict).verdict = .transition ↔
      ownershipConflict = none ∧ ∃ target, Implies candidate evidence target := by
  constructor
  · intro h
    unfold classifyRung at h
    dsimp only at h
    cases hstate : rungState? candidate.state with
    | none =>
      rw [hstate] at h
      cases (decideRung_transition_iff.mp h).1
    | some state =>
      simp only [hstate] at h
      split_ifs at h with hterminal hkey hempty
      · cases (decideRung_transition_iff.mp h).1
      · cases (decideRung_transition_iff.mp h).1
      · cases hread : readLedger evidence with
        | target target =>
          simp only [hread] at h
          split_ifs at h with hself hallows
          · cases (decideRung_transition_iff.mp h).1
          · obtain ⟨hsome, hall⟩ := readLedger_eq_target_iff.mp hread
            exact ⟨(decideRung_transition_iff.mp h).2, target, hkey,
              ⟨state, hstate, hallows⟩, hsome, hall⟩
          · cases (decideRung_transition_iff.mp h).1
        | stillOpen | unmapped | disagrees =>
          rw [hread] at h
          cases (decideRung_transition_iff.mp h).1
      · cases (decideRung_transition_iff.mp h).1
  · rintro ⟨hnone, target, h⟩
    rw [classifyRung_transition h]
    exact decideRung_transition_iff.mpr ⟨rfl, hnone⟩

theorem decideRung_verdict (verdict : RungVerdict) (reasonCode : String)
    (target : Option RungState) :
    (decideRung other ownershipConflict verdict reasonCode target).verdict =
      (decideRung evidence ownershipConflict verdict reasonCode target).verdict := by
  unfold decideRung
  split_ifs <;> rfl

theorem classifyRung_verdict_congr (hsame : ∀ e, e ∈ evidence ↔ e ∈ other) :
    (classifyRung candidate other ownershipConflict).verdict =
      (classifyRung candidate evidence ownershipConflict).verdict := by
  have hempty : other = [] ↔ evidence = [] := by
    simp only [List.eq_nil_iff_forall_not_mem, hsame]
  unfold classifyRung
  simp only [← readLedger_congr hsame, hempty]
  cases rungState? candidate.state with
  | none => exact decideRung_verdict ..
  | some state =>
    dsimp only
    split_ifs
    · exact decideRung_verdict ..
    · exact decideRung_verdict ..
    · cases readLedger evidence with
      | target target =>
        dsimp only
        split_ifs <;> exact decideRung_verdict ..
      | stillOpen | unmapped | disagrees => exact decideRung_verdict ..
    · exact decideRung_verdict ..

/-- What a verdict is documented to be: a rung is closed on terminal rows alone that agree, with
every row attributed to it, and the order or the repetition of rows changes nothing. -/
structure SoundVerdict (candidate : RungCandidate) (evidence : List LedgerEvidence)
    (ownershipConflict : Option String) : Prop where
  agreed : (classifyRung candidate evidence ownershipConflict).verdict = .transition →
    ownershipConflict = none ∧ ∃ state target, rungState? candidate.state = some state ∧
      (classifyRung candidate evidence ownershipConflict).targetState = some target ∧
      state.Allows target ∧ ∀ e ∈ evidence, e.terminal = true ∧ e.target? = some target
  waits : (∃ e ∈ evidence, e.terminal = false) → (∃ e ∈ evidence, e.terminal = true) →
    (classifyRung candidate evidence ownershipConflict).verdict ≠ .transition
  orderless : ∀ other : List LedgerEvidence, (∀ e, e ∈ evidence ↔ e ∈ other) →
    (classifyRung candidate other ownershipConflict).verdict =
      (classifyRung candidate evidence ownershipConflict).verdict

/-- A row is still open at the broker, and the terminal rows beside it imply a state that the
rung may take. -/
def ClosedBesideOpen (candidate : RungCandidate) (evidence : List LedgerEvidence)
    (ownershipConflict : Option String) : Prop :=
  ownershipConflict = none ∧ (∃ e ∈ evidence, e.terminal = false) ∧
    ∃ target, Implies candidate evidence target

/-- Rows that are still open are dropped before the others are read, so that they never hold
back a rung. -/
theorem soundVerdict_iff (candidate : RungCandidate) (evidence : List LedgerEvidence)
    (ownershipConflict : Option String) :
    SoundVerdict candidate evidence ownershipConflict ↔
      ¬ ClosedBesideOpen candidate evidence ownershipConflict := by
  constructor
  · rintro hsound ⟨hnone, hopen, target, himplies⟩
    exact hsound.waits hopen himplies.2.2.1
      (classifyRung_transition_iff.mpr ⟨hnone, target, himplies⟩)
  · intro hclosed
    have hterminal : (classifyRung candidate evidence ownershipConflict).verdict = .transition →
        ∀ e ∈ evidence, e.terminal = true := by
      intro hverdict e he
      by_contra hopen
      obtain ⟨hnone, htarget⟩ := classifyRung_transition_iff.mp hverdict
      exact hclosed ⟨hnone, ⟨e, he, Bool.eq_false_iff.mpr hopen⟩, htarget⟩
    refine ⟨fun hverdict => ?_, ?_, fun other => classifyRung_verdict_congr⟩
    · obtain ⟨rfl, target, himplies⟩ := classifyRung_transition_iff.mp hverdict
      obtain ⟨-, ⟨state, hstate, hallows⟩, -, hall⟩ := id himplies
      refine ⟨rfl, state, target, hstate, ?_, hallows, fun e he => ?_⟩
      · rw [classifyRung_transition himplies]
        rfl
      · exact ⟨hterminal hverdict e he, hall e he (hterminal hverdict e he)⟩
    · rintro ⟨e, he, hopen⟩ - hverdict
      rw [hterminal hverdict e he] at hopen
      cases hopen

/-- A resting rung that one row has filled is closed while another row is still accepted. -/
theorem filled_beside_accepted :
    ¬ SoundVerdict ⟨"resting", some "order", none, none⟩
      [⟨1, ofString "filled"⟩, ⟨2, ofString "accepted"⟩] none :=
  fun hsound => hsound.waits ⟨⟨2, ofString "accepted"⟩, by decide +kernel⟩
    ⟨⟨1, ofString "filled"⟩, by decide +kernel⟩ (by decide +kernel)

end KAssetTrader.Proposals.RestingSweep
