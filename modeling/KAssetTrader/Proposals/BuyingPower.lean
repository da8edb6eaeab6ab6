import KAssetTrader.Library.Numeric
import KAssetTrader.Library.Transition

/-!
The cache of the buying power of one account, whose operations exclude each other. A claim is
granted against the balance that is cached and expires no earlier than it does, so while the
balance counts, all claims that were granted against it count too; and the cache keeps, of all
claims not released, those that had not expired at its last look.
-/

namespace KAssetTrader.BuyingPower

open Decimal (Context)
open Transition

/-- `now + ttl_seconds`, for a positive time to live. -/
structure TimeToLive where
  deadline : ℚ → ℚ
  mono : Monotone deadline
  later : ∀ now, now < deadline now

structure Claim where
  token : ℕ
  expiresAt : ℚ
  amount : Decimal
  deriving DecidableEq

structure Entry where
  expiresAt : ℚ
  balance : Decimal
  deriving DecidableEq

/-- `_entries` and `_claims` of one key. -/
structure BuyingPowerCache where
  entry : Option Entry := none
  claims : List Claim := []
  deriving DecidableEq

/-- The available amount, with the entry and the moment that it is computed for. -/
structure Reading where
  cache : BuyingPowerCache
  entry : Entry
  now : ℚ
  available : Decimal

variable (ctx : Context) (ttl : TimeToLive)

namespace BuyingPowerCache

variable (c : BuyingPowerCache)

/-- The part of `_active_claim_total` that forgets the expired claims. -/
def purge (now : ℚ) : BuyingPowerCache :=
  { c with claims := c.claims.filter fun claim => now < claim.expiresAt }

def activeClaimTotal (now : ℚ) : Decimal := ctx.sum ((c.purge now).claims.map (·.amount))

def read (entry : Entry) (now : ℚ) : Reading :=
  ⟨{ c.purge now with entry := some entry }, entry, now,
    max (ctx.sub entry.balance (c.activeClaimTotal ctx now)) 0⟩

/-- `get_or_load`. The loader returns a balance at a later moment, or raises. -/
def getOrLoad (now : ℚ) (load : Option (Decimal × ℚ)) : Option Reading :=
  match c.entry.filter fun entry => now < entry.expiresAt with
  | some entry => some (c.read ctx entry now)
  | none => load.map fun (balance, after) => c.read ctx ⟨ttl.deadline after, balance⟩ after

/-- `claim`, with the token that the claim gets when it is granted. -/
def claim (now : ℚ) (load : Option (Decimal × ℚ)) (amount : Decimal) (token : ℕ) :
    Option (Reading × Option Claim) :=
  (c.getOrLoad ctx ttl now load).map fun reading =>
    let granted : Option Claim :=
      if amount ≤ reading.available then some ⟨token, ttl.deadline reading.now, amount⟩ else none
    ({ reading with cache.claims := reading.cache.claims ++ granted.toList }, granted)

def release (now : ℚ) (token : ℕ) : BuyingPowerCache :=
  { c with claims := (c.purge now).claims.filter fun claim => claim.token ≠ token }

end BuyingPowerCache

/-- What was available of a balance, beside the claims that were active at that moment. -/
structure Report where
  available : Decimal
  balance : Decimal
  active : Decimal

/-- The cache, the claims granted and not released, each with the entry that it was granted
against, and the amounts reported. An entry expires later than every entry before it. -/
structure PowerWorld where
  cache : BuyingPowerCache := {}
  clock : ℚ := 0
  grants : List (Claim × Entry) := []
  reports : List Report := []

inductive PowerAction where
  | getOrLoad (now : ℚ) (load : Option (Decimal × ℚ))
  | claim (now : ℚ) (load : Option (Decimal × ℚ)) (amount : Decimal) (token : ℕ)
  | release (now : ℚ) (token : ℕ)

namespace PowerWorld

variable (w : PowerWorld)

def total (p : Claim × Entry → Bool) : Decimal := ((w.grants.filter p).map (·.1.amount)).sum

/-- The claims that have not expired, whatever load they were granted against. -/
def active (now : ℚ) : Decimal := w.total fun grant => now < grant.1.expiresAt

def held (entry : Entry) : Decimal := w.total fun grant => grant.2 = entry

def take (reading : Reading) (granted : Option Claim) : PowerWorld :=
  { cache := reading.cache
    clock := reading.now
    grants := w.grants ++ (granted.map fun claim => (claim, reading.entry)).toList
    reports := ⟨reading.available, reading.entry.balance, w.active reading.now⟩ :: w.reports }

/-- The clock does not go back, loaded balances and amounts are not negative, and a token is
new. -/
def Allowed : PowerAction → Prop
  | .getOrLoad now load => w.clock ≤ now ∧ ∀ l ∈ load, 0 ≤ l.1 ∧ now ≤ l.2
  | .claim now load amount token => (w.clock ≤ now ∧ ∀ l ∈ load, 0 ≤ l.1 ∧ now ≤ l.2) ∧
      0 ≤ amount ∧ ∀ grant ∈ w.grants, grant.1.token ≠ token
  | .release now _ => w.clock ≤ now

instance : DecidablePred w.Allowed := fun action => by
  cases action <;> unfold Allowed <;> infer_instance

def perform : PowerAction → PowerWorld
  | .getOrLoad now load =>
    ((w.cache.getOrLoad ctx ttl now load).map fun reading => w.take reading none).getD
      { w with clock := now }
  | .claim now load amount token =>
    ((w.cache.claim ctx ttl now load amount token).map fun p => w.take p.1 p.2).getD
      { w with clock := now }
  | .release now token =>
    { w with
      cache := w.cache.release now token
      clock := now
      grants := w.grants.filter fun grant => grant.1.token ≠ token }

def step (action : PowerAction) : Option PowerWorld :=
  if w.Allowed action then some (w.perform ctx ttl action) else none

/-- The context rounds neither the sum of the active claims nor what it leaves of the
balance. -/
def Unrounded : PowerAction → Prop
  | .getOrLoad now load | .claim now load _ _ =>
    ∀ reading ∈ w.cache.getOrLoad ctx ttl now load,
      let amounts := reading.cache.claims.map (·.amount)
      ctx.sum amounts = amounts.sum ∧
        ctx.sub reading.entry.balance amounts.sum = reading.entry.balance - amounts.sum
  | .release _ _ => True

instance : DecidablePred (w.Unrounded ctx ttl) := fun action => by
  cases action <;> unfold Unrounded <;> infer_instance

/-- The claims on a balance stay within it, every report counts all active claims, and a release
takes away the claim of its token and no other. -/
structure Sound : Prop where
  bounded : ∀ entry : Entry, 0 ≤ entry.balance → w.held entry ≤ entry.balance
  reported : ∀ report ∈ w.reports, report.available = max 0 (report.balance - report.active)
  released : ∀ token now later, w.clock ≤ now → now ≤ later →
    ((w.cache.release now token).purge later).claims =
      (w.cache.purge later).claims.filter (fun claim => claim.token ≠ token) ∧
    ((∀ grant ∈ w.grants, grant.1.token = token → grant.1.expiresAt ≤ now) →
      (w.cache.release now token).purge later = w.cache.purge later)

structure Kept : Prop where
  claims : ∃ purged ≤ w.clock, w.cache.claims =
    (w.grants.map (·.1)).filter fun claim => purged < claim.expiresAt
  entry : ∀ e ∈ w.cache.entry, 0 ≤ e.balance ∧ e.expiresAt ≤ ttl.deadline w.clock
  grants : ∀ grant ∈ w.grants, 0 ≤ grant.1.amount ∧ grant.2.expiresAt ≤ grant.1.expiresAt
  bounded : ∀ entry : Entry, 0 ≤ entry.balance → w.held entry ≤ entry.balance
  reported : ∀ report ∈ w.reports, report.available = max 0 (report.balance - report.active)

variable {ctx ttl} {w} {now : ℚ} {load : Option (Decimal × ℚ)} {reading : Reading}

theorem filter_later {claims : List Claim} {later : ℚ} (h : now ≤ later) :
    (claims.filter fun claim => now < claim.expiresAt).filter
      (fun claim => later < claim.expiresAt) =
      claims.filter fun claim => later < claim.expiresAt := by
  rw [List.filter_filter]
  refine List.filter_congr fun claim _ => ?_
  simpa using fun hlater => h.trans_lt hlater

section

variable (h : w.Kept ttl)
include h

/-- At a later look the claims left are those not released that still last. -/
theorem Kept.purge (hnow : w.clock ≤ now) : (w.cache.purge now).claims =
    (w.grants.map (·.1)).filter fun claim => now < claim.expiresAt := by
  obtain ⟨purged, hpurged, hclaims⟩ := h.claims
  rw [BuyingPowerCache.purge, hclaims, filter_later (hpurged.trans hnow)]

theorem Kept.total_filter_le (p q : Claim × Entry → Bool) :
    (((w.grants.filter q).filter p).map (·.1.amount)).sum ≤ w.total q := by
  apply (List.filter_sublist.map _).sum_le_sum
  intro amount hamount
  obtain ⟨grant, hgrant, rfl⟩ := List.mem_map.mp hamount
  exact (h.grants grant (List.mem_of_mem_filter hgrant)).1

theorem Kept.total_le {p q : Claim × Entry → Bool}
    (hpq : ∀ grant ∈ w.grants, p grant = true → q grant = true) : w.total p ≤ w.total q := by
  refine le_of_eq_of_le ?_ (h.total_filter_le p q)
  rw [total, List.filter_filter]
  congr 2
  refine List.filter_congr fun grant hgrant => ?_
  simpa using hpq grant hgrant

theorem Kept.getOrLoad (hnow : w.clock ≤ now) (hload : ∀ l ∈ load, 0 ≤ l.1 ∧ now ≤ l.2)
    (hread : w.cache.getOrLoad ctx ttl now load = some reading) :
    w.clock ≤ reading.now ∧ reading.now < reading.entry.expiresAt ∧
      reading.entry.expiresAt ≤ ttl.deadline reading.now ∧ 0 ≤ reading.entry.balance ∧
      reading = w.cache.read ctx reading.entry reading.now := by
  unfold BuyingPowerCache.getOrLoad at hread
  split at hread
  next entry hentry =>
    cases hread
    obtain ⟨hcached, hlasts⟩ := Option.filter_eq_some_iff.mp hentry
    obtain ⟨hnonneg, hexpires⟩ := h.entry entry hcached
    exact ⟨hnow, of_decide_eq_true hlasts, hexpires.trans (ttl.mono hnow), hnonneg, rfl⟩
  · obtain ⟨⟨balance, after⟩, hloaded, rfl⟩ := Option.map_eq_some_iff.mp hread
    obtain ⟨hnonneg, hafter⟩ := hload _ hloaded
    exact ⟨hnow.trans hafter, ttl.later after, le_rfl, hnonneg, rfl⟩

theorem Kept.take {granted : Option Claim} (hnow : w.clock ≤ now)
    (hload : ∀ l ∈ load, 0 ≤ l.1 ∧ now ≤ l.2)
    (hread : w.cache.getOrLoad ctx ttl now load = some reading)
    (hexact : let amounts := reading.cache.claims.map (·.amount)
      ctx.sum amounts = amounts.sum ∧
        ctx.sub reading.entry.balance amounts.sum = reading.entry.balance - amounts.sum)
    (hgranted : ∀ claim ∈ granted, 0 ≤ claim.amount ∧ claim.amount ≤ reading.available ∧
      claim.expiresAt = ttl.deadline reading.now) :
    (w.take { reading with cache.claims := reading.cache.claims ++ granted.toList }
      granted).Kept ttl := by
  obtain ⟨hclock, hlasts, hexpires, hnonneg, heq⟩ := h.getOrLoad hnow hload hread
  have hclaims : reading.cache.claims =
      (w.grants.map (·.1)).filter fun claim => reading.now < claim.expiresAt := by
    rw [← h.purge hclock, heq]
    rfl
  have hactive : (reading.cache.claims.map (·.amount)).sum = w.active reading.now := by
    rw [hclaims, List.filter_map, List.map_map]
    rfl
  have havailable : reading.available =
      max 0 (reading.entry.balance - w.active reading.now) := by
    rw [← hactive, ← hexact.2, ← hexact.1, max_comm, heq]
    rfl
  refine ⟨⟨reading.now, le_rfl, ?_⟩, ?_, ?_, ?_, ?_⟩
  · cases granted with
    | none => simp [PowerWorld.take, hclaims]
    | some claim =>
      have hlater : reading.now < claim.expiresAt := by
        rw [(hgranted claim rfl).2.2]
        exact ttl.later _
      simp [PowerWorld.take, hclaims, hlater]
  · rw [heq]
    rintro e ⟨⟩
    exact ⟨hnonneg, hexpires⟩
  · intro grant hgrant
    rcases List.mem_append.mp hgrant with hold | hnew
    · exact h.grants grant hold
    · obtain ⟨claim, hclaim, rfl⟩ : ∃ claim ∈ granted, (claim, reading.entry) = grant := by
        simpa using hnew
      obtain ⟨hamount, _, hdeadline⟩ := hgranted claim hclaim
      exact ⟨hamount, hexpires.trans hdeadline.ge⟩
  · intro entry hentry
    have hold := h.bounded entry hentry
    cases granted with
    | none => simpa [held, PowerWorld.take, PowerWorld.total] using hold
    | some claim =>
      obtain ⟨hamount, hle, _⟩ := hgranted claim rfl
      by_cases hsame : reading.entry = entry
      · -- While the entry lasts, every claim that was granted against it is active.
        have hcounted : w.held entry ≤ w.active reading.now := by
          apply h.total_le
          intro grant hgrant hagainst
          have hlater := (h.grants grant hgrant).2
          rw [of_decide_eq_true hagainst, ← hsame] at hlater
          exact decide_eq_true (hlasts.trans_le hlater)
        have hnew : (w.take { reading with cache.claims := reading.cache.claims ++ [claim] }
            (some claim)).held entry = w.held entry + claim.amount := by
          simp [held, PowerWorld.take, PowerWorld.total, hsame]
        rw [havailable] at hle
        refine hnew.trans_le ?_
        rcases le_max_iff.mp hle with hzero | hfits
        · linarith
        · rw [hsame] at hfits
          linarith
      · simpa [held, PowerWorld.take, PowerWorld.total, hsame] using hold
  · intro report hreport
    rcases List.mem_cons.mp hreport with rfl | hold
    · exact havailable
    · exact h.reported report hold

theorem Kept.wait (hnow : w.clock ≤ now) : PowerWorld.Kept ttl { w with clock := now } := by
  obtain ⟨purged, hpurged, hclaims⟩ := h.claims
  refine ⟨⟨purged, hpurged.trans hnow, hclaims⟩, fun e he => ?_, h.grants, h.bounded, h.reported⟩
  obtain ⟨hnonneg, hexpires⟩ := h.entry e he
  exact ⟨hnonneg, hexpires.trans (ttl.mono hnow)⟩

theorem Kept.release {token : ℕ} (hnow : w.clock ≤ now) :
    PowerWorld.Kept ttl { w with
      cache := w.cache.release now token
      clock := now
      grants := w.grants.filter fun grant => grant.1.token ≠ token } := by
  refine ⟨⟨now, le_rfl, ?_⟩, ?_, ?_, ?_, h.reported⟩
  · rw [BuyingPowerCache.release, h.purge hnow, List.filter_comm, List.filter_map]
    rfl
  · intro e he
    obtain ⟨hnonneg, hexpires⟩ := h.entry e he
    exact ⟨hnonneg, hexpires.trans (ttl.mono hnow)⟩
  · exact fun grant hgrant => h.grants grant (List.mem_of_mem_filter hgrant)
  · intro entry hentry
    refine le_trans ?_ (h.bounded entry hentry)
    rw [held, total, List.filter_comm]
    exact h.total_filter_le _ _

theorem Kept.sound : w.Sound := by
  refine ⟨h.bounded, h.reported, ?_⟩
  intro token now later hnow hlater
  have hrest : ((w.cache.release now token).purge later).claims =
      (w.cache.purge later).claims.filter (fun claim => claim.token ≠ token) := by
    rw [BuyingPowerCache.purge, BuyingPowerCache.release, List.filter_comm, h.purge hnow,
      filter_later hlater, ← h.purge (hnow.trans hlater)]
  refine ⟨hrest, fun hgone => ?_⟩
  have hnone : (w.cache.purge later).claims.filter (fun claim => claim.token ≠ token) =
      (w.cache.purge later).claims := by
    rw [h.purge (hnow.trans hlater), List.filter_eq_self]
    intro claim hclaim
    obtain ⟨hmem, hlasts⟩ := List.mem_filter.mp hclaim
    obtain ⟨grant, hgrant, rfl⟩ := List.mem_map.mp hmem
    refine decide_eq_true fun htoken => ?_
    exact ((hgone grant hgrant htoken).trans hlater).not_gt (of_decide_eq_true hlasts)
  exact congrArg (BuyingPowerCache.mk w.cache.entry) (hrest.trans hnone)

end

/-- A step whose sums are not rounded keeps the claims within the balance. -/
theorem Kept.step {action : PowerAction} {w' : PowerWorld} (h : w.Kept ttl)
    (hexact : w.Unrounded ctx ttl action) (hstep : w.step ctx ttl action = some w') :
    w'.Kept ttl := by
  obtain ⟨hallowed, rfl⟩ := of_guard hstep
  cases action with
  | getOrLoad now load =>
    simp only [perform]
    cases hread : w.cache.getOrLoad ctx ttl now load with
    | none => exact h.wait hallowed.1
    | some reading =>
      have hnone : ∀ claim ∈ (none : Option Claim), 0 ≤ claim.amount ∧
          claim.amount ≤ reading.available ∧ claim.expiresAt = ttl.deadline reading.now := nofun
      have htake := h.take hallowed.1 hallowed.2 hread (hexact reading hread) hnone
      simp only [Option.toList_none, List.append_nil] at htake
      exact htake
  | claim now load amount token =>
    simp only [perform, BuyingPowerCache.claim]
    cases hread : w.cache.getOrLoad ctx ttl now load with
    | none => exact h.wait hallowed.1.1
    | some reading =>
      refine h.take hallowed.1.1 hallowed.1.2 hread (hexact reading hread) ?_
      intro claim hclaim
      split_ifs at hclaim with hle
      · cases hclaim
        exact ⟨hallowed.2.1, hle, rfl⟩
      · cases hclaim
  | release now token => exact h.release hallowed

end PowerWorld

open PowerWorld

/-- Along every run whose sums the context holds, the live claims of an account stay within the
balance that was read for the last of them. -/
theorem claims_within_balance (ctx : Context) (ttl : TimeToLive) {w : PowerWorld}
    (h : ReachableVia (· = {}) (PowerWorld.step ctx ttl) (Unrounded ctx ttl) w) :
    w.Sound := by
  have hstart : ∀ w : PowerWorld, w = {} → w.Kept ttl := by
    rintro _ rfl
    exact ⟨⟨0, le_rfl, rfl⟩, nofun, nofun, fun entry hentry => hentry, nofun⟩
  exact (invariant hstart (fun _ _ _ hkept => hkept.step) h).sound

def oneSecond : TimeToLive where
  deadline now := now + 1
  mono _ _ h := add_le_add_left h 1
  later := lt_add_one

/-- Two claims that the balance covers, one that it does not, and a release. -/
theorem claims_within_hundred : ∃ w : PowerWorld,
    w.held ⟨1, 100⟩ = 40 ∧ w.reports.map (·.available) = [60, 0, 40, 100] ∧ w.Sound := by
  let actions : List PowerAction := [.claim 0 (some (100, 0)) 60 0, .claim (1 / 2) none 40 1,
    .claim (1 / 2) none 1 2, .release (3 / 4) 0, .getOrLoad (7 / 8) none]
  obtain ⟨w, hrun, hheld⟩ := (Option.any_eq_true _ _).mp (show
    (run (PowerWorld.step (Context.digits 28) oneSecond) {} actions).any (fun w =>
      decide (w.held ⟨1, 100⟩ = 40 ∧ w.reports.map (·.available) = [60, 0, 40, 100])) = true by
    decide +kernel)
  obtain ⟨hheld, havailable⟩ := of_decide_eq_true hheld
  refine ⟨w, hheld, havailable, claims_within_balance (Context.digits 28) oneSecond
    (.run (s := {}) (.start rfl) ?_ hrun)⟩
  decide +kernel

/-- A claim that is lost when the context rounds leaves the whole balance available. -/
theorem rounded_claim_exceeds : ¬ ∀ w, Reachable (· = {})
    (PowerWorld.step (Context.digits 28) oneSecond) w → w.Sound := by
  intro hall
  obtain ⟨w, hrun, hheld⟩ := (Option.any_eq_true _ _).mp (show
    (run (PowerWorld.step (Context.digits 28) oneSecond) {}
      [.claim 0 (some (100, 0)) (1 / 10 ^ 28) 0, .claim (1 / 2) none 100 1]).any (fun w =>
        decide (100 < w.held ⟨1, 100⟩)) = true by
    decide +kernel)
  exact ((hall w (reachable_of_run rfl hrun)).bounded ⟨1, 100⟩ (by norm_num)).not_gt
    (of_decide_eq_true hheld)

end KAssetTrader.BuyingPower
