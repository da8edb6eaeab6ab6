import KAssetTrader.Manager.Outcome
import KAssetTrader.Recommendation.Claims

/-!
The managed positions of one owner: the state rows, the exit recommendations
with the claims on them, and a clock. Ticks of the manager and of the realtime
exits, the calls on the recommendations and the closing of positions take place
in any order. A tick is one transaction: it holds the lock of the position and
of the previous recommendation until it commits.
-/

namespace KAssetTrader.Manager

open Position Recommendation Transition

structure Portfolio where
  holding : ℤ → Holding
  holding_id : ∀ p, (holding p).positionId = p

structure StoredExit where
  exit : ExitRecommendation
  locked : Option Instant := none
  tokens : List String := []

namespace StoredExit

def shared (e : StoredExit) : SharedRow RecommendationKey := ⟨e.exit.row, e.locked, e.tokens⟩

def withShared (e : StoredExit) (s : SharedRow RecommendationKey) : StoredExit :=
  { exit := { e.exit with row := s.row }, locked := s.locked, tokens := s.tokens }

/-- A superseded recommendation is not valid any more. -/
def expire (e : StoredExit) (now : Instant) : StoredExit :=
  { e with exit := { e.exit with row :=
    { e.exit.row with validUntil := some now, updatedAt := now } } }

end StoredExit

structure World where
  clock : Instant
  rows : ℤ → Option PositionStateRow
  exits : RecommendationKey → Option StoredExit
  closed : ℤ → Bool

inductive WorldAction where
  | wait (now : Instant)
  | recommendation (key : RecommendationKey) (action : RowAction RecommendationKey)
  | manage (positionId : ℤ) (now : Instant) (input : TickInput)
  | realtime (positionId : ℤ) (now : Instant) (quantity : Decimal) (triggered : Option Decimal)
  | close (positionId : ℤ)

namespace World

variable (w : World)

def find (key : RecommendationKey) : Option ExitRecommendation := (w.exits key).map (·.exit)

def previous (positionId : ℤ) : Option StoredExit :=
  (w.rows positionId).bind fun row => row.lastExitSignalKey.bind w.exits

/-- A tick runs on a position that is held, once no claim transaction holds the
lock of the previous recommendation. Its clock was read before it started. -/
def Ticks (positionId : ℤ) (now : Instant) : Prop :=
  now ≤ w.clock ∧ w.closed positionId = false ∧
    ∀ e ∈ w.previous positionId, e.locked = none

instance (positionId : ℤ) (now : Instant) : Decidable (w.Ticks positionId now) := by
  unfold Ticks
  infer_instance

/-- The recommendations after a tick: the superseded one has ended, and the
created one is new. -/
def exitsAfter (now : Instant) (outcome : TickOutcome) (key : RecommendationKey) :
    Option StoredExit :=
  match outcome.created.filter (·.row.id = key) with
  | some exit => some { exit }
  | none =>
    if outcome.superseded = some key then (w.exits key).map (·.expire now) else w.exits key

def write (positionId : ℤ) (now : Instant) (result : Except String (Option TickOutcome)) :
    World :=
  match result with
  | .ok (some outcome) =>
    { w with
      rows := Function.update w.rows positionId (some outcome.row)
      exits := w.exitsAfter now outcome }
  | .ok none => w
  | .error _ => w

def NotAhead : RowAction RecommendationKey → Prop
  | .select _ now _ _ => now ≤ w.clock
  | _ => True

instance : (a : RowAction RecommendationKey) → Decidable (w.NotAhead a)
  | .select _ now _ _ => inferInstanceAs (Decidable (now ≤ w.clock))
  | .decide .. => isTrue trivial
  | .commitClaim .. => isTrue trivial
  | .rollback => isTrue trivial
  | .complete .. => isTrue trivial
  | .reconcile .. => isTrue trivial
  | .fail .. => isTrue trivial

variable (service : PositionManagerService) (portfolio : Portfolio)

/-- `_manage_position` on the tables. -/
def managed (positionId : ℤ) (now : Instant) (input : TickInput) :
    Except String (Option TickOutcome) :=
  managePosition service now (portfolio.holding positionId) input (w.rows positionId) w.find

/-- `_realtime_trend_exit` on the tables. -/
def realtimeExit (positionId : ℤ) (now : Instant) (quantity : Decimal)
    (triggered : Option Decimal) : Except String (Option TickOutcome) :=
  realtimeTrendExit service now (portfolio.holding positionId) quantity triggered
    (w.rows positionId) w.find

def step (service : PositionManagerService) (portfolio : Portfolio) (w : World) :
    WorldAction → Option World
  | .wait now => if w.clock ≤ now then some { w with clock := now } else none
  | .recommendation key action =>
    if w.NotAhead action then do
      let e ← w.exits key
      let shared ← e.shared.step action
      return { w with exits := Function.update w.exits key (some (e.withShared shared)) }
    else none
  | .manage positionId now input =>
    if w.Ticks positionId now then
      some (w.write positionId now (w.managed service portfolio positionId now input))
    else none
  | .realtime positionId now quantity triggered =>
    if w.Ticks positionId now ∧ (portfolio.holding positionId).market = .krx then
      some (w.write positionId now
        (w.realtimeExit service portfolio positionId now quantity triggered))
    else none
  | .close positionId =>
    some { w with closed := Function.update w.closed positionId true }

/-- Nothing is managed and nothing recommended yet. -/
def Start : Prop :=
  (∀ p, w.rows p = none) ∧ (∀ key, w.exits key = none) ∧ ∀ p, w.closed p = false

end World

/-- A recommendation that can still be claimed for the first time. -/
def Waiting (r : ExitRecommendation) (clock : Instant) : Prop :=
  r.row.paperExecutionStatus = none ∧ r.row.decision ≠ .rejected ∧
    ∃ validUntil ∈ r.row.validUntil, clock < validUntil

/-- A live exit recommendation: claimed, or pending or approved and unexpired. -/
def Live (r : ExitRecommendation) (clock : Instant) : Prop :=
  r.row.paperExecutionStatus = some .claimed ∨ Waiting r clock

instance (r : ExitRecommendation) (clock : Instant) : Decidable (Live r clock) := by
  unfold Live Waiting
  infer_instance

/-- Live, or selected by a claim that has not committed yet. -/
def StoredExit.Open (e : StoredExit) (clock : Instant) : Prop :=
  e.locked.isSome ∨ Live e.exit clock

/-- A row is selected for its first claim only while the recommendation is
still valid on the clock, whatever instant the claim was started with. -/
def StoredExit.TimelyClaim (e : StoredExit) (clock : Instant) :
    RowAction RecommendationKey → Prop
  | .select .. => e.exit.row.paperExecutionStatus = none →
      ∃ validUntil ∈ e.exit.row.validUntil, clock < validUntil
  | _ => True

def World.TimelyClaim (w : World) : WorldAction → Prop
  | .recommendation key action => ∀ e ∈ w.exits key, e.TimelyClaim w.clock action
  | _ => True

instance (e : StoredExit) (clock : Instant) :
    (a : RowAction RecommendationKey) → Decidable (e.TimelyClaim clock a)
  | .select .. => inferInstanceAs (Decidable (_ = none → ∃ validUntil ∈ _, clock < validUntil))
  | .decide .. => isTrue trivial
  | .commitClaim .. => isTrue trivial
  | .rollback => isTrue trivial
  | .complete .. => isTrue trivial
  | .reconcile .. => isTrue trivial
  | .fail .. => isTrue trivial

instance (w : World) : (a : WorldAction) → Decidable (w.TimelyClaim a)
  | .recommendation key action =>
    inferInstanceAs (Decidable (∀ e ∈ w.exits key, e.TimelyClaim w.clock action))
  | .wait .. => isTrue trivial
  | .manage .. => isTrue trivial
  | .realtime .. => isTrue trivial
  | .close .. => isTrue trivial

variable {e : StoredExit} {r : ExitRecommendation} {clock later now : Instant}

theorem Waiting.earlier (h : Waiting r later) (hle : clock ≤ later) : Waiting r clock := by
  obtain ⟨hstatus, hdecision, validUntil, hvalid, hlt⟩ := h
  exact ⟨hstatus, hdecision, validUntil, hvalid, lt_of_le_of_lt hle hlt⟩

theorem StoredExit.Open.earlier (h : e.Open later) (hle : clock ≤ later) : e.Open clock :=
  h.imp_right (Or.imp_right (·.earlier hle))

theorem Ended.not_open (now : Instant) (h : Ended now e.exit) (hlocked : e.locked = none)
    (hle : now ≤ clock) :
    ¬ e.Open clock := by
  rintro (hsome | hclaimed | ⟨hstatus, hdecision, t, ht, hlt⟩)
  · simp [hlocked] at hsome
  · rcases h with h | h | ⟨h, -⟩ <;> simp [hclaimed] at h
  · rcases h with h | h | ⟨-, hrejected | ⟨t', ht', hle'⟩⟩
    · simp [hstatus] at h
    · simp [hstatus] at h
    · exact hdecision hrejected
    · obtain rfl : t' = t := Option.some.inj (ht'.symm.trans ht)
      exact absurd hle (not_le.mpr (lt_of_lt_of_le hlt hle'))

theorem StoredExit.expire_not_open (hstatus : e.exit.row.paperExecutionStatus = none)
    (hlocked : e.locked = none) (hle : now ≤ clock) : ¬ (e.expire now).Open clock :=
  Ended.not_open now (.inr (.inr ⟨hstatus, .inr ⟨now, rfl, le_refl _⟩⟩)) hlocked hle

/-- What a timely action leaves open was open before it. -/
theorem open_of_step {t : SharedRow RecommendationKey} {a : RowAction RecommendationKey}
    (htimely : e.TimelyClaim clock a) (h : e.shared.step a = some t)
    (hopen : (e.withShared t).Open clock) : e.Open clock := by
  cases hlocked : t.locked with
  | some claimedAt =>
    obtain ⟨-, hheld | ⟨_, _, _, _, rfl, -, happroved, hstatus, -⟩⟩ := step_locked h hlocked
    · exact .inl (by simpa [StoredExit.shared] using congrArg Option.isSome hheld)
    rcases hstatus with ⟨hnone, -⟩ | ⟨hclaimed, -⟩
    · refine .inr (.inr ⟨hnone, ?_, htimely hnone⟩)
      simp [StoredExit.shared] at happroved
      simp [happroved]
    · exact .inr (.inl hclaimed)
  | none =>
    have hlive : Live { e.exit with row := t.row } clock := by
      simpa [StoredExit.Open, StoredExit.withShared, hlocked] using hopen
    cases step_effect h with
    | none _ hrow _ =>
      rw [hrow] at hlive
      exact .inr hlive
    | review decision now _ _ hpending hrow _ =>
      rw [hrow] at hlive
      rcases hlive with hclaimed | ⟨hstatus, -, hvalid⟩
      · exact .inr (.inl hclaimed)
      · exact .inr (.inr ⟨hstatus, by simp [show e.exit.row.decision = _ from hpending],
          hvalid⟩)
    | ended token final _ _ _ hfinal _ _ hend =>
      rcases hlive with hclaimed | ⟨hstatus, -⟩
      · exact absurd (Option.some.inj (hend.symm.trans hclaimed)) hfinal
      · simp [hend] at hstatus
    | claimed claimedAt token _ _ hheld =>
      exact .inl (by simpa [StoredExit.shared] using congrArg Option.isSome hheld)
    | exhausted claimedAt order token _ _ _ hheld =>
      exact .inl (by simpa [StoredExit.shared] using congrArg Option.isSome hheld)

end KAssetTrader.Manager
