import KAssetTrader.Inbox.System
import KAssetTrader.Library.Groups
import KAssetTrader.Library.Ranking

/-!
The recovery sweep. Four tiers of jobs that the queue may have lost are queried, oldest
first and up to a quota each, and are looked at in turn. The tier that leads is that of a
cursor, which every sweep moves by the block of the ring it reserves.
-/

namespace KAssetTrader.Inbox

open Groups Ranking

inductive Tier where
  | malformed
  | exhausted
  | queued
  | stale
  deriving DecidableEq

def recoveryTierRing : List Tier := [.malformed, .exhausted, .queued, .stale]

/-- A limit below one is refused. -/
def recoveryScanCap (limit : ℕ+) : ℕ := min (limit * 5) 1000

namespace Tier

/-- `recovery_tier_quotas` of a tier. -/
def quota (limit : ℕ+) (tier : Tier) : ℕ :=
  let reserve := max 1 (recoveryScanCap limit / 5)
  if tier = .queued then max 1 (recoveryScanCap limit - 3 * reserve) else reserve

/-- The predicate of a tier's query. A budget that is not malformed is canonical. -/
def selects (now : Instant) (row : Job) : Tier → Bool
  | .malformed => Claimant.recovery.claimable row.state && isMalformedAttemptBudget row
  | .exhausted => !isMalformedAttemptBudget row && decide
      (row.state = .retryWait ∧ row.maxAttempts ≤ row.attemptCount)
  | .queued => !isMalformedAttemptBudget row && decide
      ((row.state = .pending ∨ row.state = .retryWait) ∧ row.availableAt ≤ now ∧
        ¬ (row.state = .retryWait ∧ row.maxAttempts ≤ row.attemptCount))
  | .stale => !isMalformedAttemptBudget row && decide (row.state = .processing) &&
      row.startedAt.any (· ≤ now - processingStaleAfter)

def scanKey (e : JobId × Job) : Instant ×ₗ JobId := toLex (e.2.receivedAt, e.1)

def rows (jobs : Dict JobId Job) (now : Instant) (tier : Tier) : List (JobId × Job) :=
  sortedBy scanKey (jobs.entries.filter fun e => tier.selects now e.2)

def candidates (jobs : Dict JobId Job) (now : Instant) (limit : ℕ+) (tier : Tier) : List JobId :=
  ((tier.rows jobs now).take (tier.quota limit)).map (·.1)

structure IsOldest (jobs : Dict JobId Job) (now : Instant) (tier : Tier) (job : JobId)
    (row : Job) : Prop where
  stored : jobs.get? job = some row
  selected : tier.selects now row = true
  first : ∀ other seen, jobs.get? other = some seen → tier.selects now seen = true →
    scanKey (job, row) ≤ scanKey (other, seen)

end Tier

/-- `claimable_job_ids` of the service, where the tier at `start` leads. -/
def claimableJobIds (jobs : Dict JobId Job) (now : Instant) (limit : ℕ+) (start : ℕ) :
    List JobId :=
  inTurn ((recoveryTierRing.rotate start).map (Tier.candidates jobs now limit))

/-- The jobs that `recover_callback_jobs` looks at. One that is not claimed costs no budget. -/
def lookedAt (claims : JobId → Bool) : ℕ → List JobId → List JobId
  | 0, _ => []
  | _, [] => []
  | budget + 1, job :: rest =>
    job :: lookedAt claims (if claims job then budget else budget + 1) rest

def block (limit : ℕ+) : ℕ := min limit 4

/-- The tier that leads, and the cursor that is left. -/
def reserveRecoveryTierBlock (cursor : Option ℕ) (limit : ℕ+) : ℕ × ℕ :=
  let nextTier : ℕ := match cursor with
    | none => block limit % 4
    | some tier => (tier + block limit) % 4
  ((((nextTier : ℤ) - block limit) % 4).toNat, nextTier)

/-- The sweeps of committed reservations in their order, whoever made them. -/
def sweeps (cursor : Option ℕ) : List ℕ+ → List (ℕ+ × ℕ)
  | [] => []
  | limit :: limits =>
    (limit, (reserveRecoveryTierBlock cursor limit).1) ::
      sweeps (some (reserveRecoveryTierBlock cursor limit).2) limits

variable {jobs : Dict JobId Job} {now : Instant} {limit : ℕ+} {tier : Tier} {job : JobId}
  {row : Job}

theorem quota_pos : 0 < tier.quota limit := by
  simp only [Tier.quota]
  split_ifs <;> exact Nat.lt_of_lt_of_le Nat.one_pos (le_max_left _ _)

theorem head_candidates (h : tier.IsOldest jobs now job row) :
    (tier.candidates jobs now limit).head? = some job := by
  have hmem : (job, row) ∈ tier.rows jobs now :=
    mem_sortedBy.mpr (List.mem_filter.mpr ⟨jobs.get?_eq_some.mp h.stored, h.selected⟩)
  have hsorted : (tier.rows jobs now).Pairwise fun a b => Tier.scanKey a ≤ Tier.scanKey b :=
    sortedBy_pairwise
  obtain ⟨head, rest, hrows⟩ := List.exists_cons_of_ne_nil (List.ne_nil_of_mem hmem)
  have hentry := List.mem_filter.mp
    (mem_sortedBy.mp (hrows ▸ List.mem_cons_self : head ∈ tier.rows jobs now))
  rw [hrows, List.pairwise_cons] at hsorted
  have hle : Tier.scanKey head ≤ Tier.scanKey (job, row) := by
    rcases List.mem_cons.mp (hrows ▸ hmem) with heq | hrest
    · exact heq ▸ le_rfl
    · exact hsorted.1 _ hrest
  have hge := h.first _ _ (jobs.get?_eq_some.mpr hentry.1) hentry.2
  have hkey : head.1 = job := congrArg Prod.snd (toLex.injective (le_antisymm hle hge))
  obtain ⟨n, hn⟩ := Nat.exists_eq_add_one_of_ne_zero (@quota_pos limit tier).ne'
  simp [Tier.candidates, hrows, hn, hkey]

theorem take_subset_lookedAt {claims : JobId → Bool} {offered : List JobId} {budget : ℕ} :
    offered.take budget ⊆ lookedAt claims budget offered := by
  induction offered generalizing budget with
  | nil => simp
  | cons first rest ih =>
    cases budget with
    | zero => simp
    | succ budget =>
      rw [List.take_succ_cons, lookedAt]
      refine List.cons_subset_cons _ ?_
      split_ifs
      · exact ih
      · exact fun _ h => ih (List.take_subset_take_left _ (Nat.le_succ _) h)

theorem rotate_reserve (cursor : Option ℕ) (limit : ℕ+) :
    recoveryTierRing.rotate (reserveRecoveryTierBlock cursor limit).1 =
        recoveryTierRing.rotate (cursor.getD 0) ∧
      recoveryTierRing.rotate (reserveRecoveryTierBlock cursor limit).2 =
        (recoveryTierRing.rotate (cursor.getD 0)).rotate (block limit) := by
  have hrotate {a b : ℕ} (h : a % 4 = b % 4) :
      recoveryTierRing.rotate a = recoveryTierRing.rotate b := by
    rw [← List.rotate_mod, ← List.rotate_mod _ b]
    exact congrArg recoveryTierRing.rotate h
  rw [List.rotate_rotate]
  constructor <;> refine hrotate ?_ <;> cases cursor <;>
    simp only [reserveRecoveryTierBlock, Option.getD_none, Option.getD_some] <;> omega

/-- A sweep whose block misses a tier brings it nearer to the lead by that block. -/
theorem exists_sweep {cursor : Option ℕ} {limits : List ℕ+}
    (h : (recoveryTierRing.rotate (cursor.getD 0)).idxOf tier < (limits.map block).sum) :
    ∃ sweep ∈ sweeps cursor limits, tier ∈ (recoveryTierRing.rotate sweep.2).take sweep.1 := by
  induction limits generalizing cursor with
  | nil => simp at h
  | cons limit limits ih =>
    obtain ⟨hstart, hnext⟩ := rotate_reserve cursor limit
    by_cases hlead : tier ∈ (recoveryTierRing.rotate (cursor.getD 0)).take (block limit)
    · refine ⟨_, List.mem_cons_self, ?_⟩
      rw [hstart]
      exact List.take_subset_take_left _ (min_le_left _ _) hlead
    · have hplace := idxOf_rotate (List.mem_rotate.mpr (by cases tier <;> decide))
        (by simp [block, recoveryTierRing]) hlead
      rw [← hnext] at hplace
      rw [List.map_cons, List.sum_cons] at h
      obtain ⟨sweep, hsweep, hlead⟩ :=
        @ih (some (reserveRecoveryTierBlock cursor limit).2) (by simpa using by omega)
      exact ⟨sweep, List.mem_cons_of_mem _ hsweep, hlead⟩

/-- Of reservations that go once around the ring, one is of a sweep that looks at the oldest
job of a tier, whatever the backlog is by then and whatever that sweep can claim. -/
theorem recovery_reaches_every_tier (cursor : Option ℕ) (limits : List ℕ+)
    (hring : 4 ≤ (limits.map block).sum) (tier : Tier) :
    ∃ sweep ∈ sweeps cursor limits, ∀ jobs now claims job row,
      tier.IsOldest jobs now job row →
        job ∈ lookedAt claims sweep.1 (claimableJobIds jobs now sweep.1 sweep.2) := by
  have hplace : (recoveryTierRing.rotate (cursor.getD 0)).idxOf tier < 4 := by
    have hmem : tier ∈ recoveryTierRing.rotate (cursor.getD 0) :=
      List.mem_rotate.mpr (by cases tier <;> decide)
    simpa [recoveryTierRing] using List.idxOf_lt_length_of_mem hmem
  obtain ⟨sweep, hsweep, hlead⟩ := exists_sweep (hplace.trans_le hring)
  refine ⟨sweep, hsweep, fun jobs now claims job row holdest => take_subset_lookedAt ?_⟩
  refine mem_take_inTurn ?_ (@head_candidates _ _ sweep.1 _ _ _ holdest)
  rw [← List.map_take]
  exact List.mem_map_of_mem hlead

/-- One slot for each tier of a sweep. -/
theorem recovery_reaches_every_tier_singly :
    ∃ sweep ∈ sweeps none [1, 1, 1, 1], ∀ jobs now claims job row,
      Tier.stale.IsOldest jobs now job row →
        job ∈ lookedAt claims sweep.1 (claimableJobIds jobs now sweep.1 sweep.2) :=
  recovery_reaches_every_tier none [1, 1, 1, 1] (by decide) .stale

end KAssetTrader.Inbox
