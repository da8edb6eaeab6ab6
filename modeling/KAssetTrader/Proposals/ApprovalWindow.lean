import KAssetTrader.Proposals.Service

/-!
The window in which a proposal may be approved and sent. A decision is evaluated, bound to the
policy that the approval surface advertised, and checked once more at the instant of its use.
The digest of a policy, the resolver of sessions and the evaluator are parameters.
-/

namespace KAssetTrader.Proposals.ApprovalWindow

open Checked

structure SubmissionSessionEvidence where
  known : Bool
  source : String
  currentSession : String
  allowedSessions : List String
  allowedNow : Bool
  allowedUntil : Option Instant := none
  nextAllowedAt : Option Instant := none
  detail : Option String := none

structure ApprovalWindowDecision where
  code : ApprovalWindowCode
  observedAt : Datetime
  validUntil : Option Datetime
  policyStamp : String
  market : String
  accountMode : String
  action : String
  orderType : String
  evidence : Option SubmissionSessionEvidence := none
  detail : Option String := none

structure Group where
  market : Option String
  accountMode : Option String
  action : Option String
  orderType : Option String
  exitIntent : Option String
  validUntil : ValidUntil

def Group.exits (group : Group) : Bool := group.exitIntent.any (· ≠ "")

/-- `_aware`, which raises. -/
def aware : Datetime → Except String Instant
  | .naive _ => .error "approval-window now must be timezone-aware"
  | .aware instant => .ok instant

def policyStamp (digest : String → String) (group : Group)
    (evidence : Option SubmissionSessionEvidence) : String :=
  let action := group.action.getD ""
  let allowed := (evidence.map fun e => ",".intercalate e.allowedSessions).getD "none"
  "order-proposal-approval-window-v1:" ++ digest ("|".intercalate
    ["order-proposal-approval-window-v1", group.accountMode.getD "", group.market.getD "",
      if action = "" then "place" else action, group.orderType.getD "", "DAY", allowed])

def decisionFor (digest : String → String) (group : Group) (now : Instant)
    (code : ApprovalWindowCode)
    (evidence : Option SubmissionSessionEvidence) (detail : Option String) :
    ApprovalWindowDecision where
  code
  observedAt := .aware now
  validUntil := group.validUntil.datetime?
  policyStamp := policyStamp digest group evidence
  market := group.market.getD ""
  accountMode := group.accountMode.getD ""
  action := if group.action.getD "" = "" then "place" else group.action.getD ""
  orderType := group.orderType.getD ""
  evidence
  detail

def exitIntentWindowExemption (digest : String → String) (group : Group) (now : Datetime) :
    Except String (Option ApprovalWindowDecision) := do
  if ¬ group.exits then return none
  let now ← aware now
  match validUntilBlock group.validUntil now with
  | some (code, detail) => return some (decisionFor digest group now code none detail)
  | none =>
    let evidence : SubmissionSessionEvidence :=
      { known := true
        source := "proposal_exit_intent"
        currentSession := "exempt"
        allowedSessions := ["exit_intent_exempt"]
        allowedNow := true
        allowedUntil := group.validUntil.instant?
        detail := "protective_exit_session_calendar_exempt" }
    return some (decisionFor digest group now .allow evidence "exit_intent_session_calendar_exempt")

def evaluateApprovalWindow (digest : String → String)
    (sessionResolver : Group → Instant → Except String SubmissionSessionEvidence)
    (group : Group) (now : Datetime) : Except String ApprovalWindowDecision := do
  let instant ← aware now
  match ← exitIntentWindowExemption digest group now with
  | some exemption => return exemption
  | none =>
    match validUntilBlock group.validUntil instant with
    | some (code, detail) => return decisionFor digest group instant code none detail
    | none =>
      let evidence : SubmissionSessionEvidence :=
        match sessionResolver group instant with
        | .ok evidence => evidence
        | .error name =>
          { known := false
            source := "session_resolver"
            currentSession := "unknown"
            allowedSessions := []
            allowedNow := false
            detail := "resolver_error:" ++ name }
      if ¬ evidence.known then
        return decisionFor digest group instant .calendarUnknown evidence
          (if evidence.detail.getD "" = "" then "session_evidence_unknown" else evidence.detail)
      if evidence.allowedNow then return decisionFor digest group instant .allow evidence none
      if evidence.nextAllowedAt.any fun next => group.validUntil.instant?.any (· ≤ next) then
        return decisionFor digest group instant .noExecutableWindow evidence
          "valid_until_not_after_next_allowed_session"
      return decisionFor digest group instant .deferSessionClosed evidence
        "submission_session_closed"

def bindApprovalWindowPolicy (decision : ApprovalWindowDecision)
    (expectedPolicyStamp : Option String) : ApprovalWindowDecision :=
  if decision.code = .expired ∨ decision.code = .invalidValidUntil then decision
  else if expectedPolicyStamp = some decision.policyStamp then decision
  else
    { decision with
      code := .calendarUnknown
      detail :=
        match expectedPolicyStamp with
        | none => "approval_window_policy_stamp_missing"
        | some expected => "approval_window_policy_stamp_mismatch:expected=" ++ expected ++
            ":actual=" ++ decision.policyStamp }

def recheckApprovalWindowDecision (group : Group) (decision : ApprovalWindowDecision)
    (now : Datetime) : Except String ApprovalWindowDecision := do
  let instant ← aware now
  match validUntilBlock group.validUntil instant with
  | some (code, detail) =>
    return { decision with
      code, observedAt := now, validUntil := group.validUntil.datetime?, detail }
  | none =>
    if decision.code ≠ .allow then return { decision with observedAt := now }
    let unknown (evidence : Option SubmissionSessionEvidence) (detail : String) :=
      { decision with code := .calendarUnknown, observedAt := now, evidence, detail }
    match decision.evidence with
    | none => return unknown none "session_evidence_missing_at_completion"
    | some evidence =>
      if ¬ evidence.known then
        return unknown evidence "session_evidence_missing_at_completion"
      match evidence.allowedUntil with
      | none =>
        return unknown (some { evidence with currentSession := "unknown", allowedNow := false })
          "allowed_interval_end_missing"
      | some allowedUntil =>
        if instant < allowedUntil then return { decision with observedAt := now }
        let closed := { evidence with
          currentSession := "closed", allowedNow := false, allowedUntil := none }
        match evidence.nextAllowedAt.filter (instant < ·) with
        | none => return unknown (some closed) "next_allowed_window_stale_or_unavailable"
        | some next =>
          if group.validUntil.instant?.any (· ≤ next) then
            return { decision with
              code := .noExecutableWindow
              observedAt := now
              evidence := some closed
              detail := "valid_until_not_after_next_allowed_session" }
          return { decision with
            code := .deferSessionClosed
            observedAt := now
            evidence := some closed
            detail := "submission_session_closed_during_evaluation" }

/-- `evaluate_approval_window_boundary`, with the two samples of the clock. -/
def evaluateApprovalWindowBoundary (digest : String → String) (group : Group)
    (windowEvaluator : Group → Datetime → Except String ApprovalWindowDecision)
    (first last : Datetime) (expectedPolicyStamp : Option String) (requirePolicyStamp : Bool) :
    Except String ApprovalWindowDecision := do
  match ← exitIntentWindowExemption digest group first with
  | some exemption => recheckApprovalWindowDecision group exemption last
  | none =>
    let decision ← windowEvaluator group first
    let decision :=
      if requirePolicyStamp then bindApprovalWindowPolicy decision expectedPolicyStamp
      else decision
    recheckApprovalWindowDecision group decision last

variable {digest : String → String} {group : Group} {decision rechecked : ApprovalWindowDecision}
  {now : Datetime} {instant : Instant}

theorem validUntilBlock_eq_none_iff {value : ValidUntil} :
    validUntilBlock value instant = none ↔
      ∃ deadline, value = .datetime (.aware deadline) ∧ instant < deadline := by
  unfold validUntilBlock
  split <;> simp

/-- The end of the interval in which the evidence allows a submission. -/
def ApprovalWindowDecision.allowedUntil? (decision : ApprovalWindowDecision) : Option Instant :=
  decision.evidence.bind (·.allowedUntil)

structure ApprovalWindowDecision.OpenAt (decision : ApprovalWindowDecision) (group : Group)
    (now : Datetime) : Prop where
  valid : ∃ instant deadline, now = .aware instant ∧
    group.validUntil = .datetime (.aware deadline) ∧ instant < deadline
  session : ∃ instant evidence, now = .aware instant ∧ decision.evidence = some evidence ∧
    evidence.known = true ∧ ∃ until_ ∈ evidence.allowedUntil, instant < until_

inductive Rechecked (group : Group) (decision : ApprovalWindowDecision) (now : Datetime) :
    ApprovalWindowDecision → Prop where
  | kept : decision.code = .allow → decision.OpenAt group now →
      Rechecked group decision now { decision with observedAt := now }
  | blocked (rechecked : ApprovalWindowDecision) : rechecked.code ≠ .allow →
      (∀ t ∈ rechecked.allowedUntil?, t ∈ decision.allowedUntil?) →
      Rechecked group decision now rechecked

theorem recheck_rechecked
    (h : recheckApprovalWindowDecision group decision now = .ok rechecked) :
    Rechecked group decision now rechecked := by
  obtain ⟨instant, hnow, h⟩ := bind_ok_iff.mp h
  obtain rfl : now = .aware instant := by
    cases now with
    | naive _ => cases hnow
    | aware _ => rw [Except.ok.inj hnow]
  cases hblock : validUntilBlock group.validUntil instant with
  | some block =>
    rw [hblock] at h
    cases h
    refine .blocked _ ?_ fun _ => id
    unfold validUntilBlock at hblock
    split at hblock
    all_goals first | split_ifs at hblock | skip
    all_goals
      cases hblock
      exact nofun
  | none =>
    rw [hblock] at h
    dsimp only at h
    split_ifs at h with hallow
    · cases h
      exact .blocked _ hallow fun _ => id
    cases hevidence : decision.evidence with
    | none =>
      rw [hevidence] at h
      cases h
      exact .blocked _ nofun fun _ => nofun
    | some evidence =>
      have hsame : ∀ t ∈ evidence.allowedUntil, t ∈ decision.allowedUntil? := by
        intro t ht
        unfold ApprovalWindowDecision.allowedUntil?
        rwa [hevidence]
      rw [hevidence] at h
      dsimp only at h
      split_ifs at h with hknown
      swap
      · cases h
        exact .blocked _ nofun hsame
      cases huntil : evidence.allowedUntil with
      | none =>
        rw [huntil] at h
        cases h
        exact .blocked _ nofun fun _ => nofun
      | some until_ =>
        rw [huntil] at h
        dsimp only at h
        split_ifs at h with hopen
        · rw [← hevidence] at h
          cases h
          obtain ⟨deadline, hdeadline, hlt⟩ := validUntilBlock_eq_none_iff.mp hblock
          exact .kept (not_not.mp hallow) ⟨⟨instant, deadline, rfl, hdeadline, hlt⟩,
            ⟨instant, evidence, rfl, hevidence, hknown, until_, huntil, hopen⟩⟩
        · split at h
          · cases h
            exact .blocked _ nofun fun _ => nofun
          · split_ifs at h
            all_goals
              cases h
              exact .blocked _ nofun fun _ => nofun

/-- A decision at several instants, one after the other; the proposal may change between. -/
def recheckAll (decision : ApprovalWindowDecision) (samples : List (Group × Datetime)) :
    Except String ApprovalWindowDecision :=
  samples.foldlM (fun decision sample => recheckApprovalWindowDecision sample.1 decision sample.2)
    decision

theorem recheckAll_ok {samples : List (Group × Datetime)}
    (h : recheckAll decision samples = .ok rechecked) :
    (rechecked.code = .allow → decision.code = .allow) ∧
      ∀ t ∈ rechecked.allowedUntil?, t ∈ decision.allowedUntil? := by
  induction samples generalizing decision with
  | nil =>
    cases h
    exact ⟨id, fun _ => id⟩
  | cons sample rest ih =>
    unfold recheckAll at h
    rw [List.foldlM_cons] at h
    obtain ⟨next, hnext, h⟩ := bind_ok_iff.mp h
    obtain ⟨hcode, huntil⟩ := ih h
    cases recheck_rechecked hnext with
    | kept hallow _ => exact ⟨fun _ => hallow, huntil⟩
    | blocked _ hblocked hsame =>
      exact ⟨fun hallow => absurd (hcode hallow) hblocked, fun t ht => hsame t (huntil t ht)⟩

theorem bindApprovalWindowPolicy_allow {expected : Option String}
    (h : (bindApprovalWindowPolicy decision expected).code = .allow) :
    expected = some (bindApprovalWindowPolicy decision expected).policyStamp := by
  unfold bindApprovalWindowPolicy at h ⊢
  split_ifs at h ⊢ with hinvalid hstamp
  · rw [h] at hinvalid
    simp at hinvalid
  · exact hstamp

structure WindowKept (digest : String → String) (group : Group)
    (windowEvaluator : Group → Datetime → Except String ApprovalWindowDecision)
    (first last : Datetime) (expectedPolicyStamp : Option String) (requirePolicyStamp : Bool) :
    Prop where
  allowed : ∀ decision, evaluateApprovalWindowBoundary digest group windowEvaluator first last
      expectedPolicyStamp requirePolicyStamp = .ok decision → decision.code = .allow →
    decision.OpenAt group last ∧
      (group.exits = true ∨ expectedPolicyStamp = some decision.policyStamp)
  rechecked : ∀ decision samples rechecked, recheckAll decision samples = .ok rechecked →
    (decision.code ≠ .allow → rechecked.code ≠ .allow) ∧
      ∀ t ∈ rechecked.allowedUntil?, t ∈ decision.allowedUntil?

/-- A window that requires the policy stamp keeps every part of the claim. -/
theorem windowKept_of_required (digest : String → String) (group : Group)
    (windowEvaluator : Group → Datetime → Except String ApprovalWindowDecision)
    (first last : Datetime) (expectedPolicyStamp : Option String) :
    WindowKept digest group windowEvaluator first last expectedPolicyStamp true := by
  refine ⟨fun decision h hallow => ?_, fun decision samples rechecked h =>
    ⟨fun hblocked hallow => hblocked ((recheckAll_ok h).1 hallow), (recheckAll_ok h).2⟩⟩
  obtain ⟨exemption, hexemption, h⟩ := bind_ok_iff.mp h
  cases exemption with
  | some exemption =>
    cases recheck_rechecked h with
    | kept _ hopen =>
      refine ⟨⟨hopen.valid, hopen.session⟩, .inl ?_⟩
      by_contra hexits
      unfold exitIntentWindowExemption at hexemption
      rw [if_pos hexits] at hexemption
      cases hexemption
    | blocked _ hblocked _ => exact absurd hallow hblocked
  | none =>
    obtain ⟨evaluated, -, h⟩ := bind_ok_iff.mp h
    cases recheck_rechecked h with
    | kept hcode hopen =>
      exact ⟨⟨hopen.valid, hopen.session⟩, .inr (bindApprovalWindowPolicy_allow hcode)⟩
    | blocked _ hblocked _ => exact absurd hallow hblocked

/-- Without the stamp an open window allows what no surface has advertised. -/
theorem allow_without_stamp :
    ¬ WindowKept id ⟨some "equity_us", some "toss_live", none, some "limit", none,
        .datetime (.aware 10)⟩
      (evaluateApprovalWindow id fun _ _ => .ok
        { known := true, source := "calendar", currentSession := "regular"
          allowedSessions := ["regular"], allowedNow := true, allowedUntil := some 10 })
      (.aware 1) (.aware 2) none false := by
  intro h
  obtain ⟨-, hexits | hstamp⟩ := h.allowed _ rfl rfl
  · cases hexits
  · cases hstamp

end KAssetTrader.Proposals.ApprovalWindow
