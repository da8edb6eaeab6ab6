import KAssetTrader.Library.Transition
import KAssetTrader.Recommendation.Row

/-!
One recommendation row shared by any number of workers. A claim selects the row
for update and holds its lock until the transaction commits or is rolled back;
the other writes are single conditional updates, which wait for the lock. Every
call carries a clock of its own, so leases expire at any point of a run.
-/

namespace KAssetTrader.Recommendation

open AIRecommendation Transition
open Unicode (strip)

/-- The row, the claim transaction that holds its lock (by the instant it
selected the row for), and the tokens of the claims so far, latest first. -/
structure SharedRow (Id : Type) where
  row : AIRecommendation Id
  locked : Option Instant
  tokens : List String

inductive RowAction (Id : Type) where
  | decide (seen : AIRecommendation Id) (ownerUserId : ℤ) (recommendationId : Id)
      (decision : RecommendationDecision) (now : Instant)
  | select (ownerUserId : ℤ) (now : Instant) (recommendationId : Option Id)
      (automationOnly : Bool)
  | commitClaim (order : Option AIRecommendation.OrderSeen) (token : String)
  | rollback
  | complete (ownerUserId : ℤ) (recommendationId : Id) (claimToken paperOrderId : String)
      (orderFound : Bool) (now : Instant)
  | reconcile (seen : AIRecommendation Id) (ownerUserId : ℤ)
      (recommendationId : Id) (claimToken paperOrderId : String) (orderFound : Bool) (now : Instant)
  | fail (ownerUserId : ℤ) (recommendationId : Id) (claimToken error : String) (now : Instant)

namespace SharedRow

variable {Id : Type} [DecidableEq Id] (s : SharedRow Id)

/-- A conditional update waits while a claim holds the row lock. -/
def write (row : AIRecommendation Id) : Option (SharedRow Id) :=
  if s.locked.isSome then none else some { s with row }

def step : RowAction Id → Option (SharedRow Id)
  | .decide seen ownerUserId recommendationId decision now =>
    s.write (s.row.after
      (s.row.decideRecommendation seen ownerUserId recommendationId decision now))
  | .select ownerUserId now recommendationId automationOnly =>
    -- The rows that another claim has locked are skipped.
    if s.locked = none ∧
        s.row.Claimable ownerUserId (normalizedNow now) recommendationId automationOnly then
      some { s with locked := some (normalizedNow now) }
    else none
  | .commitClaim order token =>
    s.locked.map fun claimedAt =>
      let (row, claimed) := s.row.claimSelected order token claimedAt
      { row, locked := none, tokens := if claimed then token :: s.tokens else s.tokens }
  | .rollback => s.locked.map fun _ => { s with locked := none }
  | .complete ownerUserId recommendationId claimToken paperOrderId orderFound now =>
    s.write (s.row.after (s.row.completeExecution ownerUserId recommendationId claimToken
      paperOrderId orderFound now))
  | .reconcile seen ownerUserId recommendationId claimToken paperOrderId orderFound now =>
    s.write (s.row.after ((s.row.reconcileCompletion seen ownerUserId recommendationId
      claimToken paperOrderId orderFound now).map Prod.snd))
  | .fail ownerUserId recommendationId claimToken error now =>
    s.write (s.row.after
      (s.row.failExecution ownerUserId recommendationId claimToken error now))

def Created : Prop :=
  s.row.paperExecutionStatus = none ∧ s.row.paperExecutionAttemptCount = 0 ∧
    s.locked = none ∧ s.tokens = []

end SharedRow

def RowAction.presented {Id : Type} : RowAction Id → Option String
  | .complete _ _ claimToken _ _ _ => some (strip claimToken)
  | .reconcile _ _ _ claimToken _ _ _ => some (strip claimToken)
  | .fail _ _ claimToken _ _ => some (strip claimToken)
  | _ => none

def RowAction.ends {Id : Type} : RowAction Id → Option RecommendationExecutionStatus
  | .complete .. => some .succeeded
  | .reconcile .. => some .succeeded
  | .fail .. => some .failed
  | _ => none

def SharedRow.claims {Id : Type} (s : SharedRow Id) : RowAction Id → Option String
  | .commitClaim _ token =>
    if s.row.paperExecutionAttemptCount < paperExecutionMaxAttempts then some token else none
  | _ => none

variable {Id : Type} [DecidableEq Id] {s t : SharedRow Id} {a : RowAction Id}

/-- What one step does to the row: nothing, a review of the pending row, the
end of a claim by its token, a successful claim, or the end of the attempts. -/
inductive Effect {Id : Type} (s t : SharedRow Id) (a : RowAction Id) : Prop
  | none : s.claims a = none → t.row = s.row → t.tokens = s.tokens → Effect s t a
  | review (decision : RecommendationDecision) (now : Instant) : s.claims a = none →
      a.presented = none → s.row.decision = .pending →
      t.row = { s.row with decision, decidedAt := some now, updatedAt := now } →
      t.tokens = s.tokens → Effect s t a
  | ended (token : String) (final : RecommendationExecutionStatus) : s.claims a = none →
      a.presented = some token → a.ends = some final → final ≠ .claimed →
      s.row.paperExecutionStatus = some .claimed → s.row.paperExecutionToken = some token →
      t.row.paperExecutionStatus = some final →
      t.row.decision = s.row.decision →
      t.row.paperExecutionAttemptCount = s.row.paperExecutionAttemptCount →
      t.tokens = s.tokens → s.row.SameIntent t.row → Effect s t a
  | claimed (claimedAt : Instant) (token : String) : s.claims a = some token →
      a.presented = none → s.locked = some claimedAt →
      s.row.paperExecutionAttemptCount < paperExecutionMaxAttempts →
      t.row = s.row.claimed token claimedAt → t.tokens = token :: s.tokens → Effect s t a
  | exhausted (claimedAt : Instant) (order : Option AIRecommendation.OrderSeen)
      (token : String) : a = .commitClaim order token →
      s.claims a = none → a.presented = none → s.locked = some claimedAt →
      t.row = s.row.attemptLimitReached order claimedAt → t.tokens = s.tokens → Effect s t a

omit [DecidableEq Id] in
theorem write_spec {row : AIRecommendation Id} (h : s.write row = some t) :
    s.locked = none ∧ t.locked = none ∧ t.row = row ∧ t.tokens = s.tokens := by
  unfold SharedRow.write at h
  split at h
  · cases h
  next hlocked =>
    have hnone : s.locked = none := by simpa using hlocked
    cases h
    exact ⟨hnone, hnone, rfl, rfl⟩

omit [DecidableEq Id] in
theorem ends_effect {row : AIRecommendation Id} {presented : String}
    {final : RecommendationExecutionStatus}
    (hends : AIRecommendation.EndsWith s.row row presented final)
    (ha : a.presented = some (strip presented)) (hfinal : a.ends = some final)
    (hopen : final ≠ .claimed) (hclaims : s.claims a = none)
    (h : s.write row = some t) : Effect s t a := by
  obtain ⟨-, -, hrow, htokens⟩ := write_spec h
  rcases hends with hsame | ⟨hstatus, htoken, hend, hdecision, hcount, hintent⟩
  · exact .none hclaims (hrow.trans hsame) htokens
  · exact .ended (strip presented) final hclaims ha hfinal hopen hstatus htoken (hrow ▸ hend)
      (hrow ▸ hdecision)
      (hrow ▸ hcount) htokens (hrow ▸ hintent)

theorem step_effect (h : s.step a = some t) : Effect s t a := by
  cases a with
  | decide seen ownerUserId recommendationId decision now =>
    obtain ⟨-, -, hrow, htokens⟩ := write_spec h
    rcases decideRecommendation_after s.row ownerUserId
      recommendationId decision now seen with hsame | ⟨hpending, hreview⟩
    · exact .none rfl (hrow.trans hsame) htokens
    · exact .review decision (normalizedNow now) rfl rfl hpending (hrow.trans hreview) htokens
  | select ownerUserId now recommendationId automationOnly =>
    simp only [SharedRow.step] at h
    split at h
    · cases h
      exact .none rfl rfl rfl
    · cases h
  | commitClaim order token =>
    obtain ⟨claimedAt, hlocked, h⟩ := Option.map_eq_some_iff.mp h
    by_cases hlimit : paperExecutionMaxAttempts ≤ s.row.paperExecutionAttemptCount
    · simp only [claimSelected, if_pos hlimit] at h
      obtain rfl := h
      exact .exhausted claimedAt order token rfl (if_neg (not_lt.mpr hlimit)) rfl hlocked rfl rfl
    · simp only [claimSelected, if_neg hlimit] at h
      obtain rfl := h
      have hlt := not_le.mp hlimit
      exact .claimed claimedAt token (if_pos hlt) rfl hlocked hlt rfl rfl
  | rollback =>
    obtain ⟨claimedAt, -, rfl⟩ := Option.map_eq_some_iff.mp h
    exact .none rfl rfl rfl
  | complete ownerUserId recommendationId claimToken paperOrderId orderFound now =>
    exact ends_effect completeExecution_ends rfl rfl (by simp) rfl h
  | reconcile seen ownerUserId recommendationId claimToken paperOrderId orderFound now =>
    exact ends_effect reconcileCompletion_ends rfl rfl (by simp) rfl h
  | fail ownerUserId recommendationId claimToken error now =>
    exact ends_effect failExecution_ends rfl rfl (by simp) rfl h

theorem step_tokens (h : s.step a = some t) : t.tokens = (s.claims a).toList ++ s.tokens := by
  cases step_effect h with
  | none hclaims _ htokens => simp [hclaims, htokens]
  | review _ _ hclaims _ _ _ htokens => simp [hclaims, htokens]
  | ended _ _ hclaims _ _ _ _ _ _ _ _ htokens => simp [hclaims, htokens]
  | claimed _ _ hclaims _ _ _ _ htokens => simp [hclaims, htokens]
  | exhausted _ _ _ _ hclaims _ _ _ htokens => simp [hclaims, htokens]

theorem step_succeeded (h : s.step a = some t)
    (hsucceeded : t.row.paperExecutionStatus = some .succeeded) :
    s.row.paperExecutionStatus = some .succeeded ∨ a.ends = some .succeeded ∨
      ∃ order token, a = .commitClaim order token ∧ order.any (·.status == "FILLED") = true := by
  cases step_effect h with
  | none _ hrow _ => exact .inl (hrow ▸ hsucceeded)
  | review decision now _ _ _ hrow _ => exact .inl (by simpa [hrow] using hsucceeded)
  | ended token final _ _ hfinal _ _ _ hend =>
    exact .inr (.inl (by rw [hfinal, ← hend, hsucceeded]))
  | claimed claimedAt token _ _ _ _ hrow _ =>
    simp [hrow, claimed] at hsucceeded
  | exhausted claimedAt order token ha _ _ _ hrow _ =>
    refine .inr (.inr ⟨order, token, ha, ?_⟩)
    by_contra hunfilled
    simp [hrow, attemptLimitReached, hunfilled] at hsucceeded

theorem step_failed (h : s.step a = some t)
    (hfailed : t.row.paperExecutionStatus = some .failed) :
    s.row.paperExecutionStatus = some .failed ∨
      (s.row.paperExecutionStatus = some .claimed ∧
        ∃ token, a.presented = some token ∧ a.ends = some .failed ∧
          s.row.paperExecutionToken = some token) ∨
      ∃ order token, a = .commitClaim order token ∧ s.claims a = none ∧
        order.any (·.status == "FILLED") = false := by
  cases step_effect h with
  | none _ hrow _ => exact .inl (hrow ▸ hfailed)
  | review decision now _ _ _ hrow _ => exact .inl (by simpa [hrow] using hfailed)
  | ended token final _ hpresented hfinal _ hstatus htoken hend =>
    exact .inr (.inl ⟨hstatus, token, hpresented, by rw [hfinal, ← hend, hfailed], htoken⟩)
  | claimed claimedAt token _ _ _ _ hrow _ =>
    simp [hrow, claimed] at hfailed
  | exhausted claimedAt order token ha hclaims _ _ hrow _ =>
    refine .inr (.inr ⟨order, token, ha, hclaims, ?_⟩)
    by_contra hfilled
    simp [hrow, attemptLimitReached, hfilled] at hfailed

structure Claims {Id : Type} (s : SharedRow Id) : Prop where
  attempts_eq : s.row.paperExecutionAttemptCount = s.tokens.length
  attempts_le : s.row.paperExecutionAttemptCount ≤ paperExecutionMaxAttempts
  current : s.row.paperExecutionStatus = some .claimed →
    s.row.paperExecutionToken = s.tokens.head?
  approved : s.row.paperExecutionStatus ≠ none → s.row.decision = .approved
  selected : ∀ claimedAt ∈ s.locked, s.row.decision = .approved ∧
    (s.row.paperExecutionStatus = none ∨ s.row.paperExecutionStatus = some .claimed)

omit [DecidableEq Id] in
theorem created_claims (h : s.Created) : Claims s := by
  obtain ⟨hstatus, hcount, hlocked, htokens⟩ := h
  exact ⟨by simp [hcount, htokens], by simp [hcount], by simp [hstatus], by simp [hstatus],
    by simp [hlocked]⟩

theorem step_locked (h : s.step a = some t) {claimedAt : Instant}
    (hlocked : t.locked = some claimedAt) :
    t.row = s.row ∧ (s.locked = some claimedAt ∨
      ∃ ownerUserId now recommendationId automationOnly,
        a = .select ownerUserId now recommendationId automationOnly ∧
          s.row.Claimable ownerUserId claimedAt recommendationId automationOnly) := by
  have hwrite {row : AIRecommendation Id} (hw : s.write row = some t) : False := by
    simp [(write_spec hw).2.1] at hlocked
  cases a with
  | select ownerUserId now recommendationId automationOnly =>
    simp only [SharedRow.step] at h
    split at h
    next hselect =>
      cases h
      cases hlocked
      exact ⟨rfl, .inr ⟨_, _, _, _, rfl, hselect.2⟩⟩
    · cases h
  | commitClaim order token =>
    obtain ⟨_, -, rfl⟩ := Option.map_eq_some_iff.mp h
    cases hlocked
  | rollback =>
    obtain ⟨_, -, rfl⟩ := Option.map_eq_some_iff.mp h
    cases hlocked
  | decide => exact (hwrite h).elim
  | complete => exact (hwrite h).elim
  | reconcile => exact (hwrite h).elim
  | fail => exact (hwrite h).elim

theorem step_claims (hinv : Claims s) (h : s.step a = some t) : Claims t := by
  have hselected : ∀ claimedAt ∈ t.locked, t.row.decision = .approved ∧
      (t.row.paperExecutionStatus = none ∨ t.row.paperExecutionStatus = some .claimed) := by
    intro claimedAt hlocked
    obtain ⟨hrow, hheld | ⟨_, _, _, _, -, -, happroved, hstatus, -⟩⟩ := step_locked h hlocked
    · exact hrow ▸ hinv.selected claimedAt hheld
    · exact hrow ▸ ⟨happroved, hstatus.imp And.left And.left⟩
  cases step_effect h with
  | none _ hrow htokens =>
    refine ⟨?_, hrow ▸ hinv.attempts_le, ?_, hrow ▸ hinv.approved, hselected⟩
    · rw [hrow, htokens]
      exact hinv.attempts_eq
    · rw [hrow, htokens]
      exact hinv.current
  | review decision now _ _ hpending hrow htokens =>
    refine ⟨?_, ?_, ?_, ?_, hselected⟩
    · rw [hrow, htokens]
      exact hinv.attempts_eq
    · rw [hrow]
      exact hinv.attempts_le
    · rw [hrow, htokens]
      exact hinv.current
    · rw [hrow]
      intro hstatus
      simp [hinv.approved hstatus] at hpending
  | ended token final _ _ _ hopen hstatus _ hend hdecision hcount htokens =>
    refine ⟨?_, hcount ▸ hinv.attempts_le, ?_, ?_, hselected⟩
    · rw [hcount, htokens]
      exact hinv.attempts_eq
    · intro hclaimed
      exact absurd (Option.some.inj (hend.symm.trans hclaimed)) hopen
    · intro _
      rw [hdecision]
      exact hinv.approved (by simp [hstatus])
  | claimed claimedAt token _ _ hlocked hlt hrow htokens =>
    refine ⟨?_, ?_, ?_, ?_, hselected⟩
    · rw [hrow, htokens]
      simp [claimed, hinv.attempts_eq]
    · rw [hrow]
      exact hlt
    · rw [hrow, htokens]
      intro _
      rfl
    · rw [hrow]
      intro _
      exact (hinv.selected claimedAt hlocked).1
  | exhausted claimedAt order token _ _ _ hlocked hrow htokens =>
    refine ⟨?_, ?_, ?_, ?_, hselected⟩
    · rw [hrow, htokens]
      exact hinv.attempts_eq
    · rw [hrow]
      exact hinv.attempts_le
    · rw [hrow]
      intro hclaimed
      simp only [attemptLimitReached] at hclaimed
      split at hclaimed <;> cases hclaimed
    · rw [hrow]
      intro _
      exact (hinv.selected claimedAt hlocked).1

theorem reachable_claims (h : Reachable SharedRow.Created SharedRow.step s) : Claims s :=
  invariant (fun _ hs => created_claims hs) (fun _ _ _ hinv _ hst => step_claims hinv hst) h

/-- No action changes a row that is terminal. -/
theorem Claims.terminal_step (hinv : Claims s) (hterminal : s.row.Terminal)
    (h : s.step a = some t) : t.row = s.row := by
  have hopen (hstatus : s.row.paperExecutionStatus = none ∨
      s.row.paperExecutionStatus = some .claimed)
      (hdecision : s.row.decision ≠ .rejected) : False := by
    rcases hterminal with hend | hend | hend
    · simp [hend] at hstatus
    · simp [hend] at hstatus
    · exact hdecision hend
  have hlocked {claimedAt : Instant} (hlocked : s.locked = some claimedAt) : False := by
    obtain ⟨happroved, hstatus⟩ := hinv.selected claimedAt hlocked
    exact hopen hstatus (by simp [happroved])
  cases step_effect h with
  | none _ hrow _ => exact hrow
  | review decision now _ _ hpending _ _ =>
    refine (hopen (Or.inl ?_) (by simp [hpending])).elim
    by_contra hstatus
    simp [hinv.approved hstatus] at hpending
  | ended token final _ _ _ _ hstatus =>
    exact (hopen (Or.inr hstatus) (by simp [hinv.approved (by simp [hstatus])])).elim
  | claimed claimedAt token _ _ hheld => exact (hlocked hheld).elim
  | exhausted claimedAt order token _ _ _ hheld => exact (hlocked hheld).elim

/-- The claim protocol on one row, over every interleaving: final rows are
absorbing, every successful claim counts one attempt up to the limit, and a
completion or failure has an effect only with the token of the latest claim. -/
theorem shared_row_protocol (h : Reachable SharedRow.Created SharedRow.step s) :
    s.row.paperExecutionAttemptCount ≤ paperExecutionMaxAttempts ∧
    s.row.paperExecutionAttemptCount = s.tokens.length ∧
    ∀ a t, s.step a = some t →
      (s.row.Terminal → t.row = s.row) ∧
      t.tokens = (s.claims a).toList ++ s.tokens ∧
      t.row.paperExecutionAttemptCount =
        s.row.paperExecutionAttemptCount + (if (s.claims a).isSome then 1 else 0) ∧
      (∀ token ∈ s.claims a, t.row.paperExecutionStatus = some .claimed ∧
        t.row.paperExecutionToken = some token) ∧
      (∀ token ∈ a.presented, t.row ≠ s.row →
        s.tokens.head? = some token ∧ s.row.paperExecutionStatus = some .claimed ∧
          s.row.paperExecutionToken = some token) := by
  have hinv := reachable_claims h
  refine ⟨hinv.attempts_le, hinv.attempts_eq, fun a t hstep =>
    ⟨fun hterminal => hinv.terminal_step hterminal hstep, step_tokens hstep, ?_⟩⟩
  cases step_effect hstep with
  | none hclaims hrow _ =>
    refine ⟨by simp [hclaims, hrow], by simp [hclaims], ?_⟩
    exact fun token _ hne => absurd hrow hne
  | review decision now hclaims hpresented _ hrow _ =>
    exact ⟨by simp [hclaims, hrow], by simp [hclaims], by simp [hpresented]⟩
  | ended token final hclaims hpresented _ _ hstatus htoken _ _ hcount _ =>
    refine ⟨by simp [hclaims, hcount], by simp [hclaims], ?_⟩
    intro token' htoken' _
    obtain rfl : token = token' := by simpa [hpresented] using htoken'
    exact ⟨(hinv.current hstatus).symm.trans htoken, hstatus, htoken⟩
  | claimed claimedAt token hclaims hpresented _ _ hrow _ =>
    refine ⟨?_, ?_, by simp [hpresented]⟩
    · simp [hclaims, hrow, claimed]
    · intro token' htoken'
      obtain rfl : token = token' := by simpa [hclaims] using htoken'
      simp [hrow, claimed]
  | exhausted claimedAt order token _ hclaims hpresented _ hrow _ =>
    exact ⟨by simp [hclaims, hrow, attemptLimitReached], by simp [hclaims],
      by simp [hpresented]⟩

def approvedRow : AIRecommendation String where
  ownerUserId := 1
  id := "r"
  action := .buy
  decision := .approved
  rationale := ["breakout"]
  source := some "kasset-automation"
  createdAt := 0
  validUntil := some 3600000000
  decidedAt := some 0
  updatedAt := 0

/-- A claim, and a second one by another worker once the first lease ended. -/
def takeover : List (RowAction String) :=
  [.select 1 0 none false, .commitClaim none "first",
   .select 1 paperExecutionLease none false, .commitClaim none "second"]

/-- A second consumer takes an expired claim over. -/
theorem shared_row_protocol_takeover :
    ∃ s, run SharedRow.step ⟨approvedRow, none, []⟩ takeover = some s ∧
      s.row.paperExecutionAttemptCount = 2 ∧
      ∀ a t, s.step a = some t → ∀ token ∈ a.presented, t.row ≠ s.row → token = "second" := by
  have hrun : (run SharedRow.step ⟨approvedRow, none, []⟩ takeover).map (·.tokens) =
      some ["second", "first"] := by decide +kernel
  obtain ⟨s, hs, htokens⟩ := Option.map_eq_some_iff.mp hrun
  obtain ⟨-, hcount, hsteps⟩ :=
    shared_row_protocol (reachable_of_run ⟨rfl, rfl, rfl, rfl⟩ hs)
  refine ⟨s, hs, by rw [hcount, htokens]; rfl, fun a t hstep token htoken hne => ?_⟩
  obtain ⟨hhead, -⟩ := (hsteps a t hstep).2.2.2.2 token htoken hne
  simpa [htokens, eq_comm] using hhead

/-- Over every interleaving of reviewers and workers, only an approved row is ever claimed or
ended, and a decision that has been made stays. -/
theorem decisions_final (h : Reachable SharedRow.Created SharedRow.step s) :
    (s.row.paperExecutionStatus ≠ none → s.row.decision = .approved) ∧
    (∀ claimedAt ∈ s.locked, s.row.decision = .approved) ∧
    ∀ a t, s.step a = some t → s.row.decision ≠ .pending → t.row.decision = s.row.decision := by
  have hinv := reachable_claims h
  refine ⟨hinv.approved, fun claimedAt hlocked => (hinv.selected claimedAt hlocked).1, ?_⟩
  intro a t hstep hdecided
  cases step_effect hstep with
  | none _ hrow _ => rw [hrow]
  | review _ _ _ _ hpending => exact absurd hpending hdecided
  | ended _ _ _ _ _ _ _ _ _ hdecision => exact hdecision
  | claimed _ _ _ _ _ _ hrow _ => rw [hrow]; rfl
  | exhausted _ _ _ _ _ _ _ hrow _ => rw [hrow]; rfl

/-- The decision stands while the claim changes hands. -/
theorem decisions_final_takeover :
    ∃ s, run SharedRow.step ⟨approvedRow, none, []⟩ takeover = some s ∧
      ∀ a t, s.step a = some t → s.row.decision ≠ .pending → t.row.decision = s.row.decision := by
  obtain ⟨s, hs⟩ := Option.isSome_iff_exists.mp
    (show (run SharedRow.step ⟨approvedRow, none, []⟩ takeover).isSome by decide +kernel)
  exact ⟨s, hs, (decisions_final (reachable_of_run ⟨rfl, rfl, rfl, rfl⟩ hs)).2.2⟩

section Recovery

/-- A claimed row holds the end of the lease after which others may claim it. -/
def Leased (s : SharedRow Id) : Prop :=
  s.row.paperExecutionStatus = some .claimed → ∃ lease,
    s.row.paperExecutionLeaseExpiresAt = some lease

omit [DecidableEq Id] in
theorem Effect.leased (heffect : Effect s t a) (h : Leased s) : Leased t := by
  intro hclaimed
  cases heffect with
  | none _ hrow _ => exact hrow ▸ h (hrow ▸ hclaimed)
  | review _ _ _ _ _ hrow _ =>
    rw [hrow] at hclaimed ⊢
    exact h hclaimed
  | ended _ _ _ _ _ hopen _ _ hend =>
    exact absurd (Option.some.inj (hend.symm.trans hclaimed)) hopen
  | claimed claimedAt _ _ _ _ _ hrow _ => exact ⟨claimedAt + paperExecutionLease, by rw [hrow]; rfl⟩
  | exhausted _ _ _ _ _ _ _ hrow _ =>
    rw [hrow] at hclaimed
    simp only [attemptLimitReached] at hclaimed
    split at hclaimed <;> cases hclaimed

/-- Once its lease has ended, another worker claims the row. -/
theorem taken_over (order : Option OrderSeen) (token : String) {lease : Instant}
    (hlocked : s.locked = none) (hclaimed : s.row.paperExecutionStatus = some .claimed)
    (happroved : s.row.decision = .approved)
    (hlease : s.row.paperExecutionLeaseExpiresAt = some lease) :
    ∃ now, ∀ actions,
      run SharedRow.step s
          (.select s.row.ownerUserId now none false :: .commitClaim order token :: actions) =
        run SharedRow.step ⟨(s.row.claimSelected order token (normalizedNow now)).1, none,
          if (s.row.claimSelected order token (normalizedNow now)).2 then token :: s.tokens
          else s.tokens⟩ actions := by
  have hended : lease ≤ normalizedNow (lease + 1000000) := by
    have hpart : (lease + 1000000) % 1000000 < 1000000 := Int.emod_lt_of_pos _ (by norm_num)
    unfold normalizedNow
    linarith
  have hclaimable : s.row.Claimable s.row.ownerUserId (normalizedNow (lease + 1000000)) none
      false := by
    refine ⟨rfl, happroved, .inr ⟨hclaimed, lease, hlease, hended⟩, ?_, ?_⟩
    · intro hautomation
      cases hautomation
    · intro i hi
      cases hi
  refine ⟨lease + 1000000, fun actions => ?_⟩
  have hselect : s.step (.select s.row.ownerUserId (lease + 1000000) none false) =
      some { s with locked := some (normalizedNow (lease + 1000000)) } :=
    if_pos ⟨hlocked, hclaimable⟩
  rw [run, hselect]
  rfl

theorem recovered (order : Option OrderSeen) (token : String) (n : ℕ)
    (hn : paperExecutionMaxAttempts - s.row.paperExecutionAttemptCount = n)
    (hlocked : s.locked = none) (hclaimed : s.row.paperExecutionStatus = some .claimed)
    (happroved : s.row.decision = .approved) (hleased : Leased s) :
    ∃ actions t, (∀ a ∈ actions, a.presented = none) ∧ actions.length ≤ 2 * n + 2 ∧
      run SharedRow.step s actions = some t ∧ t.row.paperExecutionStatus =
        some (if order.any (·.status == "FILLED") then .succeeded else .failed) := by
  induction n generalizing s with
  | zero =>
    obtain ⟨lease, hlease⟩ := hleased hclaimed
    obtain ⟨now, hrun⟩ := taken_over order token hlocked hclaimed happroved hlease
    refine ⟨_, _, ?_, le_rfl, hrun [], ?_⟩
    · simp [RowAction.presented]
    · rw [claimSelected, if_pos (by omega)]
      rfl
  | succ n ih =>
    obtain ⟨lease, hlease⟩ := hleased hclaimed
    obtain ⟨now, hrun⟩ := taken_over order token hlocked hclaimed happroved hlease
    rw [claimSelected, if_neg (by omega)] at hrun
    have hcount : paperExecutionMaxAttempts - (s.row.paperExecutionAttemptCount + 1) = n := by
      omega
    obtain ⟨actions, t, hnone, hlength, hrest, hstatus⟩ :=
      ih (s := ⟨s.row.claimed token (normalizedNow now), none, token :: s.tokens⟩) hcount rfl rfl
        happroved (fun _ => ⟨_, rfl⟩)
    refine ⟨_, t, ?_, ?_, (hrun actions).trans hrest, hstatus⟩
    · simpa [RowAction.presented] using hnone
    · simp only [List.length_cons]
      omega

/-- A claim whose worker is gone, at any point of any run, is brought to its end by other workers
alone, who present no token: in at most nine steps, and as they find the order. -/
theorem abandoned_claim_ends (order : Option OrderSeen)
    (h : Reachable SharedRow.Created SharedRow.step s)
    (hclaimed : s.row.paperExecutionStatus = some .claimed) :
    ∃ actions t, (∀ a ∈ actions, a.presented = none) ∧ actions.length ≤ 9 ∧
      run SharedRow.step s actions = some t ∧ t.row.paperExecutionStatus =
        some (if order.any (·.status == "FILLED") then .succeeded else .failed) := by
  have hleased : Leased s := invariant (P := Leased)
    (fun s hs hstatus => by cases hs.1.symm.trans hstatus)
    (fun s a t hs _ hst => (step_effect hst).leased hs) h
  have happroved : s.row.decision = .approved :=
    (reachable_claims h).approved (by rw [hclaimed]; rintro ⟨⟩)
  have hleft : paperExecutionMaxAttempts - s.row.paperExecutionAttemptCount ≤ 3 := Nat.sub_le _ _
  cases hlocked : s.locked with
  | none =>
    obtain ⟨actions, t, hnone, hlength, hend⟩ :=
      recovered order "" _ rfl hlocked hclaimed happroved hleased
    exact ⟨actions, t, hnone, by omega, hend⟩
  | some claimedAt =>
    -- The claim that holds the lock is rolled back first.
    have hrolled : s.step .rollback = some { s with locked := none } := by
      rw [SharedRow.step, hlocked]
      rfl
    obtain ⟨actions, t, hnone, hlength, hrun, hstatus⟩ :=
      recovered (s := { s with locked := none }) order "" _ rfl rfl hclaimed happroved hleased
    refine ⟨.rollback :: actions, t, ?_, ?_, ?_, hstatus⟩
    · simpa [RowAction.presented] using hnone
    · rw [List.length_cons]
      dsimp only at hlength
      omega
    · exact Option.bind_eq_some_iff.mpr ⟨_, hrolled, hrun⟩

/-- The first worker is gone after its claim. -/
theorem abandoned_claim_ends_taken :
    ∃ s, run SharedRow.step ⟨approvedRow, none, []⟩ (takeover.take 2) = some s ∧
      ∃ actions t, (∀ a ∈ actions, a.presented = none) ∧ actions.length ≤ 9 ∧
        run SharedRow.step s actions = some t ∧ t.row.paperExecutionStatus = some .failed := by
  have hrun : (run SharedRow.step ⟨approvedRow, none, []⟩ (takeover.take 2)).map
      (·.row.paperExecutionStatus) = some (some .claimed) := by decide +kernel
  obtain ⟨s, hs, hclaimed⟩ := Option.map_eq_some_iff.mp hrun
  exact ⟨s, hs, abandoned_claim_ends none (reachable_of_run ⟨rfl, rfl, rfl, rfl⟩ hs) hclaimed⟩

end Recovery

end KAssetTrader.Recommendation
