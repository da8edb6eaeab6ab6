import KAssetTrader.Library.Checked
import KAssetTrader.Library.Decimal
import KAssetTrader.Library.Unicode

/-!
One row of the recommendation table and the statements that write it: review,
claim, completion and failure. A repository method is a conditional update; it
returns `none` when its condition does not match the row. The service methods
wrap them with the checks of their arguments and the errors they raise.
-/

namespace KAssetTrader.Recommendation

open Unicode (strip)

inductive RecommendationAction where
  | buy
  | sell
  | hold
  | watch
  deriving DecidableEq

inductive RecommendationDecision where
  | pending
  | approved
  | rejected
  deriving DecidableEq

inductive RecommendationExecutionStatus where
  | claimed
  | succeeded
  | failed
  deriving DecidableEq

inductive ServiceError where
  | notFound
  | stateConflict
  | validation (reason : String)

structure AIRecommendation (Id : Type) where
  ownerUserId : ℤ
  id : Id
  action : RecommendationAction
  decision : RecommendationDecision := .pending
  rationale : List String
  source : Option String
  createdAt : Instant
  validUntil : Option Instant
  decidedAt : Option Instant := none
  paperExecutionStatus : Option RecommendationExecutionStatus := none
  paperExecutionToken : Option String := none
  paperExecutionClaimedAt : Option Instant := none
  paperExecutionLeaseExpiresAt : Option Instant := none
  paperExecutionAttemptCount : ℕ := 0
  paperExecutionCompletedAt : Option Instant := none
  paperOrderId : Option String := none
  paperExecutionError : Option String := none
  updatedAt : Instant
  deriving DecidableEq

def normalizedClaimToken (value : String) : Except ServiceError String :=
  let token := strip value
  if token = "" then .error (.validation "paper_execution_token_required") else .ok token

/-- `_normalized_now`: whole seconds. -/
def normalizedNow (now : Instant) : Instant := now - now % 1000000

/-- `PAPER_EXECUTION_LEASE`: five minutes. -/
def paperExecutionLease : ℤ := 5 * 60 * 1000000

def paperExecutionMaxAttempts : ℕ := 3

def clientOrderIdOf (recommendationId : String) : String := "ai-rec:" ++ recommendationId

namespace AIRecommendation

variable {Id : Type} [DecidableEq Id] (row : AIRecommendation Id)

def resolvePending (ownerUserId : ℤ) (recommendationId : Id)
    (decision : RecommendationDecision) (decidedAt : Instant) : Option (AIRecommendation Id) :=
  if row.ownerUserId = ownerUserId ∧ row.id = recommendationId ∧ row.decision = .pending then
    some { row with decision, decidedAt := some decidedAt, updatedAt := decidedAt }
  else none

/-- The rows that `claim_for_paper_execution` selects for update. -/
def Claimable (ownerUserId : ℤ) (now : Instant) (recommendationId : Option Id)
    (automationOnly : Bool) : Prop :=
  row.ownerUserId = ownerUserId ∧ row.decision = .approved ∧
    ((row.paperExecutionStatus = none ∧ ∃ t ∈ row.validUntil, now < t) ∨
      (row.paperExecutionStatus = some .claimed ∧
        ∃ t ∈ row.paperExecutionLeaseExpiresAt, t ≤ now)) ∧
    (automationOnly → row.source = some "kasset-automation") ∧
    (∀ i ∈ recommendationId, row.id = i)

instance (ownerUserId : ℤ) (now : Instant) (recommendationId : Option Id)
    (automationOnly : Bool) :
    Decidable (row.Claimable ownerUserId now recommendationId automationOnly) := by
  unfold Claimable
  infer_instance

/-- `complete_paper_execution` of the repository. -/
def completePaperExecution (ownerUserId : ℤ) (recommendationId : Id)
    (claimToken paperOrderId : String)
    (completedAt : Instant) : Option (AIRecommendation Id) :=
  if row.ownerUserId = ownerUserId ∧ row.id = recommendationId ∧
      row.paperExecutionStatus = some .claimed ∧ row.paperExecutionToken = some claimToken then
    some { row with
      paperExecutionStatus := some .succeeded
      paperExecutionToken := none
      paperExecutionLeaseExpiresAt := none
      paperExecutionCompletedAt := some completedAt
      paperOrderId := some paperOrderId
      paperExecutionError := none
      updatedAt := completedAt }
  else none

/-- `fail_paper_execution` of the repository. -/
def failPaperExecution (ownerUserId : ℤ) (recommendationId : Id) (claimToken error : String)
    (completedAt : Instant) : Option (AIRecommendation Id) :=
  if row.ownerUserId = ownerUserId ∧ row.id = recommendationId ∧
      row.paperExecutionStatus = some .claimed ∧ row.paperExecutionToken = some claimToken then
    some { row with
      paperExecutionStatus := some .failed
      paperExecutionToken := none
      paperExecutionLeaseExpiresAt := none
      paperExecutionCompletedAt := some completedAt
      paperOrderId := none
      paperExecutionError := some error
      updatedAt := completedAt }
  else none

/-- The order of the recommendation as the attempt limit reads it. -/
structure OrderSeen where
  id : String
  status : String

/-- The end of the attempts: the order decides between the two final states. -/
def attemptLimitReached (order : Option OrderSeen) (claimedAt : Instant) : AIRecommendation Id :=
  let filled := order.any (·.status == "FILLED")
  { row with
    paperExecutionStatus := some (if filled then .succeeded else .failed)
    paperExecutionToken := none
    paperExecutionLeaseExpiresAt := none
    paperExecutionCompletedAt := some claimedAt
    paperOrderId := if filled then order.map (·.id) else none
    paperExecutionError :=
      if filled then none
      else match order with
        | none => some "paper_execution_attempt_limit_exceeded"
        | some seen => some ("paper_order_not_final:" ++ seen.status)
    updatedAt := claimedAt }

def claimed (token : String) (claimedAt : Instant) : AIRecommendation Id :=
  { row with
    paperExecutionStatus := some .claimed
    paperExecutionToken := some token
    paperExecutionClaimedAt := some claimedAt
    paperExecutionLeaseExpiresAt := some (claimedAt + paperExecutionLease)
    paperExecutionAttemptCount := row.paperExecutionAttemptCount + 1
    paperExecutionCompletedAt := none
    paperOrderId := none
    paperExecutionError := none
    updatedAt := claimedAt }

/-- `claim_for_paper_execution` of the service, once the row is selected: the
row as committed, and whether it was claimed. -/
def claimSelected (order : Option OrderSeen) (token : String) (claimedAt : Instant) :
    AIRecommendation Id × Bool :=
  if paperExecutionMaxAttempts ≤ row.paperExecutionAttemptCount then
    (row.attemptLimitReached order claimedAt, false)
  else (row.claimed token claimedAt, true)

def validateApproval (now : Instant) : Except ServiceError Unit :=
  if row.action ≠ .buy ∧ row.action ≠ .sell then
    .error (.validation "action_not_approvable")
  else if ¬ row.rationale.any (fun item => strip item ≠ "") then
    .error (.validation "rationale_required")
  else match row.validUntil with
    | none => .error (.validation "valid_until_required")
    | some validUntil =>
      if validUntil ≤ now then .error (.validation "recommendation_expired") else .ok ()

/-- `decide`: the row it read first, and the row its update finds. -/
def decideRecommendation (seen : AIRecommendation Id) (ownerUserId : ℤ) (recommendationId : Id)
    (decision : RecommendationDecision) (now : Instant) :
    Except ServiceError (AIRecommendation Id) :=
  if decision = .pending then .error (.validation "invalid_decision")
  else if ¬ (seen.ownerUserId = ownerUserId ∧ seen.id = recommendationId) then
    .error .notFound
  else if seen.decision ≠ .pending then
    if seen.decision = decision then .ok row else .error .stateConflict
  else
    (if decision = .approved then seen.validateApproval (normalizedNow now) else .ok ()) >>=
      fun _ =>
        match row.resolvePending ownerUserId recommendationId decision (normalizedNow now) with
        | some resolved => .ok resolved
        | none => if row.decision = decision then .ok row else .error .stateConflict

/-- A conditional update of the service: no match is a conflict, or an unknown
recommendation. -/
def updated (ownerUserId : ℤ) (recommendationId : Id)
    (result : Option (AIRecommendation Id)) : Except ServiceError (AIRecommendation Id) :=
  match result with
  | some row => .ok row
  | none =>
    if row.ownerUserId = ownerUserId ∧ row.id = recommendationId then
      .error .stateConflict
    else .error .notFound

/-- `complete_paper_execution` of the service; `orderFound` is the outcome of
`_validated_completion_order`. -/
def completeExecution (ownerUserId : ℤ) (recommendationId : Id) (claimToken paperOrderId : String)
    (orderFound : Bool) (now : Instant) : Except ServiceError (AIRecommendation Id) :=
  normalizedClaimToken claimToken >>= fun token =>
    let orderId := strip paperOrderId
    if orderId = "" then .error (.validation "paper_order_id_required")
    else if ¬ orderFound then .error .stateConflict
    else row.updated ownerUserId recommendationId
      (row.completePaperExecution ownerUserId recommendationId token orderId
        (normalizedNow now))

/-- `fail_paper_execution` of the service. -/
def failExecution (ownerUserId : ℤ) (recommendationId : Id) (claimToken error : String)
    (now : Instant) : Except ServiceError (AIRecommendation Id) :=
  normalizedClaimToken claimToken >>= fun token =>
    let reason := String.ofList ((strip error).toList.take 1000)
    if reason = "" then .error (.validation "paper_execution_error_required")
    else row.updated ownerUserId recommendationId
      (row.failPaperExecution ownerUserId recommendationId token reason (normalizedNow now))

/-- `reconcile_paper_execution_completion`: the row it read first, and the row
its update finds. The update runs only on a claim that was read with the token. -/
def reconcileCompletion (seen : AIRecommendation Id) (ownerUserId : ℤ)
    (recommendationId : Id) (claimToken paperOrderId : String) (orderFound : Bool) (now : Instant) :
    Except ServiceError (Bool × AIRecommendation Id) :=
  normalizedClaimToken claimToken >>= fun token =>
    let orderId := strip paperOrderId
    if orderId = "" then .error (.validation "paper_order_id_required")
    else if ¬ orderFound then .error .stateConflict
    else if ¬ (seen.ownerUserId = ownerUserId ∧ seen.id = recommendationId) then
      .error .notFound
    else if seen.paperExecutionStatus = some .succeeded then
      .ok (seen.paperOrderId = some orderId, row)
    else if seen.paperExecutionStatus ≠ some .claimed ∨
        seen.paperExecutionToken ≠ some token then
      .ok (false, row)
    else match row.completePaperExecution ownerUserId recommendationId token orderId
        (normalizedNow now) with
      | some completed => .ok (true, completed)
      | none =>
        .ok (decide (row.paperExecutionStatus = some .succeeded ∧
          row.paperOrderId = some orderId), row)

variable {row} {written : AIRecommendation Id} {ownerUserId : ℤ} {recommendationId : Id}
  {token paperOrderId error : String} {decision : RecommendationDecision}
  {orderFound : Bool} {now completedAt : Instant}

/-- The row after a call: what it wrote, or unchanged when it raised. -/
def after (row : AIRecommendation Id) (result : Except ServiceError (AIRecommendation Id)) :
    AIRecommendation Id :=
  match result with
  | .ok written => written
  | .error _ => row

/-- A final state of the row: its execution ended, or it was rejected. -/
def Terminal (row : AIRecommendation Id) : Prop :=
  row.paperExecutionStatus = some .succeeded ∨ row.paperExecutionStatus = some .failed ∨
    row.decision = .rejected

theorem resolvePending_spec
    (h : row.resolvePending ownerUserId recommendationId decision completedAt = some written) :
    row.decision = .pending ∧
      written = { row with
        decision, decidedAt := some completedAt, updatedAt := completedAt } := by
  unfold resolvePending at h
  split at h
  next hcond => exact ⟨hcond.2.2, (Option.some.inj h).symm⟩
  · cases h

theorem completePaperExecution_spec (h : row.completePaperExecution ownerUserId recommendationId
      token paperOrderId completedAt = some written) :
    row.paperExecutionStatus = some .claimed ∧ row.paperExecutionToken = some token ∧
      written = { row with
        paperExecutionStatus := some .succeeded
        paperExecutionToken := none
        paperExecutionLeaseExpiresAt := none
        paperExecutionCompletedAt := some completedAt
        paperOrderId := some paperOrderId
        paperExecutionError := none
        updatedAt := completedAt } := by
  unfold completePaperExecution at h
  split at h
  next hcond => exact ⟨hcond.2.2.1, hcond.2.2.2, (Option.some.inj h).symm⟩
  · cases h

theorem failPaperExecution_spec (h : row.failPaperExecution ownerUserId recommendationId
      token error completedAt = some written) :
    row.paperExecutionStatus = some .claimed ∧ row.paperExecutionToken = some token ∧
      written = { row with
        paperExecutionStatus := some .failed
        paperExecutionToken := none
        paperExecutionLeaseExpiresAt := none
        paperExecutionCompletedAt := some completedAt
        paperOrderId := none
        paperExecutionError := some error
        updatedAt := completedAt } := by
  unfold failPaperExecution at h
  split at h
  next hcond => exact ⟨hcond.2.2.1, hcond.2.2.2, (Option.some.inj h).symm⟩
  · cases h

structure SameIntent (row written : AIRecommendation Id) : Prop where
  id : written.id = row.id
  validUntil : written.validUntil = row.validUntil

/-- The token-conditional calls leave the row alone, or find it claimed with
the presented token and end the execution in the given state. -/
def EndsWith (row written : AIRecommendation Id) (presented : String)
    (final : RecommendationExecutionStatus) : Prop :=
  written = row ∨
    row.paperExecutionStatus = some .claimed ∧ row.paperExecutionToken = some (strip presented) ∧
      written.paperExecutionStatus = some final ∧ written.decision = row.decision ∧
      written.paperExecutionAttemptCount = row.paperExecutionAttemptCount ∧
      SameIntent row written

theorem updated_eq_ok {result : Option (AIRecommendation Id)}
    (h : row.updated ownerUserId recommendationId result = .ok written) :
    result = some written := by
  cases result with
  | some r => rw [Except.ok.inj h]
  | none =>
    simp only [updated] at h
    split at h <;> cases h

theorem normalizedClaimToken_ok {value : String} (h : normalizedClaimToken value = .ok token) :
    token = strip value := by
  simp only [normalizedClaimToken] at h
  split at h
  · cases h
  · exact (Except.ok.inj h).symm

theorem completeExecution_ends :
    EndsWith row (row.after (row.completeExecution ownerUserId recommendationId token
      paperOrderId orderFound now)) token .succeeded := by
  cases hresult : row.completeExecution ownerUserId recommendationId token paperOrderId
      orderFound now with
  | error e => exact .inl rfl
  | ok written =>
    obtain ⟨normalized, hnormalized, h⟩ := Checked.bind_ok_iff.mp hresult
    obtain rfl := normalizedClaimToken_ok hnormalized
    simp only at h
    split at h
    · cases h
    split at h
    · cases h
    obtain ⟨hstatus, htoken, rfl⟩ := completePaperExecution_spec (updated_eq_ok h)
    exact .inr ⟨hstatus, htoken, rfl, rfl, rfl, ⟨rfl, rfl⟩⟩

theorem failExecution_ends :
    EndsWith row (row.after (row.failExecution ownerUserId recommendationId token error now))
      token .failed := by
  cases hresult : row.failExecution ownerUserId recommendationId token error now with
  | error e => exact .inl rfl
  | ok written =>
    obtain ⟨normalized, hnormalized, h⟩ := Checked.bind_ok_iff.mp hresult
    obtain rfl := normalizedClaimToken_ok hnormalized
    simp only at h
    split at h
    · cases h
    obtain ⟨hstatus, htoken, rfl⟩ := failPaperExecution_spec (updated_eq_ok h)
    exact .inr ⟨hstatus, htoken, rfl, rfl, rfl, ⟨rfl, rfl⟩⟩

theorem reconcileCompletion_ends {seen : AIRecommendation Id} :
    EndsWith row (row.after ((row.reconcileCompletion seen ownerUserId recommendationId token
      paperOrderId orderFound now).map Prod.snd)) token .succeeded := by
  cases hresult : row.reconcileCompletion seen ownerUserId recommendationId token paperOrderId
      orderFound now with
  | error e => exact .inl rfl
  | ok result =>
    obtain ⟨normalized, hnormalized, h⟩ := Checked.bind_ok_iff.mp hresult
    obtain rfl := normalizedClaimToken_ok hnormalized
    simp only at h
    split at h
    · cases h
    split at h
    · cases h
    split at h
    · cases h
    split at h
    · cases h
      exact .inl rfl
    split at h
    · cases h
      exact .inl rfl
    split at h
    next completed hcompleted =>
      cases h
      obtain ⟨hstatus, htoken, rfl⟩ := completePaperExecution_spec hcompleted
      exact .inr ⟨hstatus, htoken, rfl, rfl, rfl, ⟨rfl, rfl⟩⟩
    · cases h
      exact .inl rfl

variable (row ownerUserId recommendationId decision now) in
theorem decideRecommendation_after (seen : AIRecommendation Id) :
    row.after (row.decideRecommendation seen ownerUserId recommendationId decision now) = row ∨
      row.decision = .pending ∧
        row.after (row.decideRecommendation seen ownerUserId recommendationId decision now) =
          { row with decision, decidedAt := some (normalizedNow now)
                     updatedAt := normalizedNow now } := by
  cases hresult : row.decideRecommendation seen ownerUserId recommendationId decision now with
  | error e => exact .inl rfl
  | ok written =>
    unfold decideRecommendation at hresult
    split at hresult
    · cases hresult
    split at hresult
    · cases hresult
    split at hresult
    · split at hresult
      · exact .inl (Except.ok.inj hresult).symm
      · cases hresult
    obtain ⟨_, _, h⟩ := Checked.bind_ok_iff.mp hresult
    split at h
    next resolved hresolved =>
      cases h
      exact .inr (resolvePending_spec hresolved)
    · split at h
      · exact .inl (Except.ok.inj h).symm
      · cases h

end AIRecommendation

end KAssetTrader.Recommendation
