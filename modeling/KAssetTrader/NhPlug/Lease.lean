import KAssetTrader.Library.Transition

/-!
The owner lease of the nh-stream processes. One Redis key names the instance that may open
the sessions, with a time to live. An instance takes the key with `SET NX PX`, renews it
inside a watched transaction, and gives it up with a read followed by a delete. Each Redis
command is one step, so that commands of different instances and the expiry of the key may
come in any order between any two commands of one instance.
-/

namespace KAssetTrader.NhPlug

open Transition

abbrev Millis := ℕ

/-- `int(LEASE_SECONDS * 1000)`. -/
def leaseMillis : Millis := 15000

def leaseRenewSeconds : ℤ := 5

structure OwnerKey where
  holder : ℕ
  expiresAt : Millis

/-- The Redis command that an instance sends next. A version is the one of the key when it
was watched; the read of a release has no watch, and its version is only remembered. -/
inductive LeasePhase
  | idle
  | claiming
  | watching
  | reading (version : ℕ)
  | extending (version : ℕ)
  | checking
  | deleting (version : ℕ)
  | stopped
deriving DecidableEq

structure LeaseInstance where
  owner : Bool
  nextLeaseAt : ℤ
  phase : LeasePhase

/-- A fresh runner: `_owner` is false and `_next_lease_at` is zero. -/
def LeaseInstance.fresh : LeaseInstance := ⟨false, 0, .idle⟩

/-- A deletion or an extension of the key, with the unexpired holder that it met. -/
structure LeaseTouch where
  sender : ℕ
  holder : Option ℕ
deriving DecidableEq

/-- How a command ended: answered, executed with the answer lost, or not executed. -/
inductive CommandOutcome
  | answered
  | lost
  | failed

/-- The server, the instances, and a record of what they did. `version` counts the
modifications of the key, which is what a watch compares. `granted` is when the lease that
an instance was last given in Redis ends, unless the instance has given it up. -/
structure LeaseWorld where
  expiryAborts : Bool
  clock : Millis
  key : Option OwnerKey
  version : ℕ
  instances : ℕ → LeaseInstance
  touches : List LeaseTouch
  granted : ℕ → Option Millis

namespace LeaseWorld

variable (w : LeaseWorld)

/-- What a read of the key answers: nothing once its time to live is over. -/
def current : Option ℕ :=
  match w.key with
  | none => none
  | some key => if w.clock < key.expiresAt then some key.holder else none

def setInstance (i : ℕ) (value : LeaseInstance) : LeaseWorld :=
  { w with instances := Function.update w.instances i value }

/-- `SET key instance NX PX`. -/
def setNx (i : ℕ) : LeaseWorld :=
  match w.current with
  | some _ => w
  | none =>
    { w with
      key := some ⟨i, w.clock + leaseMillis⟩
      version := w.version + 1
      granted := Function.update w.granted i (some (w.clock + leaseMillis)) }

/-- `EXEC` of `PEXPIRE`: nothing happens when the key was modified since the watch. -/
def executePexpire (i version : ℕ) : LeaseWorld :=
  if version = w.version then
    match w.current with
    | none => w
    | some holder =>
      { w with
        key := some ⟨holder, w.clock + leaseMillis⟩
        version := w.version + 1
        touches := ⟨i, some holder⟩ :: w.touches
        granted := Function.update w.granted i (some (w.clock + leaseMillis)) }
  else w

/-- Whether `execute` returns; otherwise it raises `WatchError`. Whether the expiry of a
watched key aborts the transaction depends on the server. -/
def executes (version : ℕ) : Bool :=
  version = w.version && (w.current.isSome || !w.expiryAborts)

/-- `DEL key`, whoever holds it. -/
def delete (i : ℕ) : LeaseWorld :=
  { w with
    key := none
    version := w.version + 1
    touches := ⟨i, w.current⟩ :: w.touches
    granted := Function.update w.granted i none }

/-- `_hold_lease` ends: the answer is kept, and an exception gives up the ownership. -/
def settle (i : ℕ) (owner : Bool) : LeaseWorld :=
  w.setInstance i { w.instances i with owner := owner, phase := .idle }

def enter (i : ℕ) (phase : LeasePhase) : LeaseWorld :=
  w.setInstance i { w.instances i with phase := phase }

/-- `_release_lease` ends, and with it the process. -/
def halt (i : ℕ) : LeaseWorld :=
  w.setInstance i { w.instances i with owner := false, phase := .stopped }

/-- `_hold_lease` up to its first command. -/
def hold (i : ℕ) (now : ℤ) : LeaseWorld :=
  let runner := w.instances i
  if now < runner.nextLeaseAt then w
  else
    w.setInstance i
      { runner with
        nextLeaseAt := now + leaseRenewSeconds
        phase := if runner.owner then .watching else .claiming }

def command (i : ℕ) (outcome : CommandOutcome) : Option LeaseWorld :=
  match (w.instances i).phase, outcome with
  | .idle, _ | .stopped, _ => none
  | .claiming, .answered => some ((w.setNx i).settle i w.current.isNone)
  | .claiming, .lost => some ((w.setNx i).settle i false)
  | .claiming, .failed => some (w.settle i false)
  | .watching, .answered => some (w.enter i (.reading w.version))
  | .watching, _ => some (w.settle i false)
  | .reading version, .answered =>
    if w.current = some i then some (w.enter i (.extending version))
    else some (w.settle i false)
  | .reading _, _ => some (w.settle i false)
  | .extending version, .answered =>
    some ((w.executePexpire i version).settle i (w.executes version))
  | .extending version, .lost => some ((w.executePexpire i version).settle i false)
  | .extending _, .failed => some (w.settle i false)
  | .checking, .answered =>
    if w.current = some i then some (w.enter i (.deleting w.version)) else some (w.halt i)
  | .checking, _ => some (w.halt i)
  | .deleting _, .failed => some (w.halt i)
  | .deleting _, _ => some ((w.delete i).halt i)

end LeaseWorld

inductive LeaseAction
  | pass (millis : ℕ)
  | hold (i : ℕ) (now : ℤ)
  | command (i : ℕ) (outcome : CommandOutcome)
  | release (i : ℕ)
  | crash (i : ℕ)

/-- A release starts when the loop ends, also when the loop was cancelled inside
`_hold_lease`; a release or a process that has ended does not start again. -/
def LeasePhase.mayRelease : LeasePhase → Bool
  | .checking | .deleting _ | .stopped => false
  | _ => true

def LeaseWorld.step (w : LeaseWorld) : LeaseAction → Option LeaseWorld
  | .pass millis => some { w with clock := w.clock + millis }
  | .hold i now => if (w.instances i).phase = .idle then some (w.hold i now) else none
  | .command i outcome => w.command i outcome
  | .release i =>
    if (w.instances i).phase.mayRelease then some (w.enter i .checking) else none
  | .crash i => some (w.halt i)

/-- The key is free and no instance has run yet. -/
def LeaseStart (w : LeaseWorld) : Prop :=
  w.key = none ∧ w.touches = [] ∧ (∀ i, w.instances i = .fresh) ∧ ∀ i, w.granted i = none

def LeaseWorld.Holds (w : LeaseWorld) (i : ℕ) : Prop :=
  ∃ expiresAt, w.granted i = some expiresAt ∧ w.clock < expiresAt

/-- A key with an unexpired holder is deleted and extended by that holder only, and two
instances never both hold an unexpired lease. -/
structure LeaseSound (w : LeaseWorld) : Prop where
  touched_by_holder : ∀ touch ∈ w.touches, ∀ j, touch.holder = some j → touch.sender = j
  one_holder : ∀ i j, w.Holds i → w.Holds j → i = j

/-- No instance modified the key between the read of this release and its delete. -/
def ReleaseUndisturbed (w : LeaseWorld) : LeaseAction → Prop
  | .command i _ =>
    match (w.instances i).phase with
    | .deleting version => version = w.version
    | _ => True
  | _ => True

instance (w : LeaseWorld) (action : LeaseAction) : Decidable (ReleaseUndisturbed w action) :=
  match action with
  | .command i _ =>
    match h : (w.instances i).phase with
    | .deleting version =>
      decidable_of_iff (version = w.version) (by simp only [ReleaseUndisturbed, h])
    | .idle | .claiming | .watching | .reading _ | .extending _ | .checking | .stopped =>
      isTrue (by simp only [ReleaseUndisturbed, h])
  | .pass _ | .hold _ _ | .release _ | .crash _ => isTrue trivial

section Invariant

/-- The version of the key that an instance remembers. -/
def LeasePhase.seen : LeasePhase → Option ℕ
  | .reading version | .extending version | .deleting version => some version
  | _ => none

/-- The version remembered by an instance that has read its own name. -/
def LeasePhase.own : LeasePhase → Option ℕ
  | .extending version | .deleting version => some version
  | _ => none

/-- Versions are remembered from the past, and while the key is not modified an instance
that has read its own name is still named by it. -/
structure PhasesKept (w : LeaseWorld) : Prop where
  seen : ∀ i version, (w.instances i).phase.seen = some version → version ≤ w.version
  own : ∀ i version, (w.instances i).phase.own = some version → version = w.version →
    ∃ expiresAt, w.key = some ⟨i, expiresAt⟩

/-- An unexpired grant is what the key says, and the record is that of the holders. -/
structure GrantsKept (w : LeaseWorld) : Prop where
  grants : ∀ i expiresAt, w.granted i = some expiresAt → w.clock < expiresAt →
    w.key = some ⟨i, expiresAt⟩
  touched_by_holder : ∀ touch ∈ w.touches, ∀ j, touch.holder = some j → touch.sender = j

variable {w w' : LeaseWorld} {i j version : ℕ} {action : LeaseAction}

variable {phase : LeasePhase} {value : LeaseInstance}

theorem LeasePhase.seen_of_own (h : phase.own = some version) :
    phase.seen = some version := by
  cases phase with
  | extending found => exact h
  | deleting found => exact h
  | idle => cases h
  | claiming => cases h
  | watching => cases h
  | reading found => cases h
  | checking => cases h
  | stopped => cases h

theorem current_eq_some (h : w.current = some j) :
    ∃ expiresAt, w.key = some ⟨j, expiresAt⟩ ∧ w.clock < expiresAt := by
  unfold LeaseWorld.current at h
  split at h
  · cases h
  next key hkey =>
    split at h
    next hlive =>
      cases h
      exact ⟨key.expiresAt, hkey, hlive⟩
    · cases h

theorem current_of_key {expiresAt : Millis} (hkey : w.key = some ⟨j, expiresAt⟩)
    (hlive : w.clock < expiresAt) : w.current = some j := by
  simp only [LeaseWorld.current, hkey]
  rw [if_pos hlive]

/-- Whoever was granted a lease that has not ended is named by a read of the key. -/
theorem GrantsKept.current_of_holds (h : GrantsKept w) (hholds : w.Holds i) :
    w.current = some i := by
  obtain ⟨expiresAt, hgranted, hlive⟩ := hholds
  exact current_of_key (h.grants i expiresAt hgranted hlive) hlive

theorem GrantsKept.sound (h : GrantsKept w) : LeaseSound w := by
  constructor
  · exact h.touched_by_holder
  · intro i j hi hj
    have hfirst := h.current_of_holds hi
    have hsecond := h.current_of_holds hj
    exact Option.some.inj (hfirst.symm.trans hsecond)

section

variable (h : PhasesKept w)
include h

theorem PhasesKept.modify (hinstances : w'.instances = w.instances)
    (hversion : w'.version = w.version + 1) : PhasesKept w' := by
  constructor
  · intro i version hseen
    rw [hinstances] at hseen
    have hold := h.seen i version hseen
    omega
  · intro i version hown hnow
    rw [hinstances] at hown
    have hold := h.seen i version (LeasePhase.seen_of_own hown)
    omega

theorem PhasesKept.setInstance
    (hseen : ∀ version, value.phase.seen = some version → version ≤ w.version)
    (hown : ∀ version, value.phase.own = some version → version = w.version → ∃ expiresAt, w.key =
      some ⟨i, expiresAt⟩) :
    PhasesKept (w.setInstance i value) := by
  constructor
  · intro j version hj
    by_cases hsame : j = i
    · subst hsame
      simp only [LeaseWorld.setInstance, Function.update_self] at hj
      exact hseen version hj
    · simp only [LeaseWorld.setInstance, Function.update_of_ne hsame] at hj
      exact h.seen j version hj
  · intro j version hj hnow
    by_cases hsame : j = i
    · subst hsame
      simp only [LeaseWorld.setInstance, Function.update_self] at hj
      exact hown version hj hnow
    · simp only [LeaseWorld.setInstance, Function.update_of_ne hsame] at hj
      exact h.own j version hj hnow

/-- An instance that remembers no version adds nothing to keep. -/
theorem PhasesKept.setForgetful (hforgets : value.phase.seen = none) :
    PhasesKept (w.setInstance i value) := by
  apply h.setInstance
  · intro version hseen
    rw [hforgets] at hseen
    cases hseen
  · intro version hown
    rw [LeasePhase.seen_of_own hown] at hforgets
    cases hforgets

theorem PhasesKept.settle (i : ℕ) (owner : Bool) :
    PhasesKept (w.settle i owner) :=
  h.setForgetful rfl

theorem PhasesKept.halt (i : ℕ) : PhasesKept (w.halt i) :=
  h.setForgetful rfl

theorem PhasesKept.setNx (i : ℕ) : PhasesKept (w.setNx i) := by
  unfold LeaseWorld.setNx
  split
  · exact h
  · exact h.modify rfl rfl

theorem PhasesKept.executePexpire (i version : ℕ) :
    PhasesKept (w.executePexpire i version) := by
  unfold LeaseWorld.executePexpire
  split
  · split
    · exact h
    · exact h.modify rfl rfl
  · exact h

theorem PhasesKept.delete (i : ℕ) : PhasesKept (w.delete i) :=
  h.modify rfl rfl

end

/-- A read that names the instance itself is remembered with a version that is not newer
than the key. -/
theorem PhasesKept.enterOwn (h : PhasesKept w) {version : ℕ} (hphase : phase.seen = some version)
    (hversion : version ≤ w.version) (hcurrent : w.current = some i) :
    PhasesKept (w.enter i phase) := by
  apply h.setInstance
  · intro found hfound
    cases hphase.symm.trans hfound
    exact hversion
  · intro _ _ _
    obtain ⟨expiresAt, hkey, _⟩ := current_eq_some hcurrent
    exact ⟨expiresAt, hkey⟩

theorem PhasesKept.hold (h : PhasesKept w) (i : ℕ) (now : ℤ) : PhasesKept (w.hold i now) := by
  unfold LeaseWorld.hold
  dsimp only
  split
  · exact h
  · apply h.setForgetful
    dsimp only
    split
    · rfl
    · rfl

theorem PhasesKept.command (h : PhasesKept w) {outcome : CommandOutcome}
    (hcommand : w.command i outcome = some w') : PhasesKept w' := by
  unfold LeaseWorld.command at hcommand
  split at hcommand
  · cases hcommand
  · cases hcommand
  · cases hcommand
    exact (h.setNx i).settle i _
  · cases hcommand
    exact (h.setNx i).settle i _
  · cases hcommand
    exact h.settle i _
  · cases hcommand
    apply h.setInstance
    · intro version hseen
      cases hseen
      exact le_rfl
    · intro version hown
      cases hown
  · cases hcommand
    exact h.settle i _
  next version hphase =>
    split at hcommand
    next hcurrent =>
      cases hcommand
      have hversion := h.seen i version (by rw [hphase]; rfl)
      exact h.enterOwn rfl hversion hcurrent
    · cases hcommand
      exact h.settle i _
  · cases hcommand
    exact h.settle i _
  next version _ =>
    cases hcommand
    exact (h.executePexpire i version).settle i _
  next version _ =>
    cases hcommand
    exact (h.executePexpire i version).settle i _
  · cases hcommand
    exact h.settle i _
  · split at hcommand
    next hcurrent =>
      cases hcommand
      exact h.enterOwn rfl le_rfl hcurrent
    · cases hcommand
      exact h.halt i
  · cases hcommand
    exact h.halt i
  · cases hcommand
    exact h.halt i
  · cases hcommand
    exact (h.delete i).halt i

/-- What an instance remembers of the key stays in the past. -/
theorem PhasesKept.step (h : PhasesKept w) (hstep : w.step action = some w') :
    PhasesKept w' := by
  cases action with
  | pass millis =>
    cases hstep
    exact ⟨h.seen, h.own⟩
  | hold i now =>
    simp only [LeaseWorld.step] at hstep
    split at hstep
    · cases hstep
      exact h.hold i now
    · cases hstep
  | command i outcome => exact h.command hstep
  | release i =>
    simp only [LeaseWorld.step] at hstep
    split at hstep
    · cases hstep
      exact h.setForgetful rfl
    · cases hstep
  | crash i =>
    cases hstep
    exact h.halt i

theorem GrantsKept.same_of_key (h : GrantsKept w) {expiresAt : Millis}
    (hkey : w.key = some ⟨i, expiresAt⟩) (hholds : w.Holds j) : j = i := by
  obtain ⟨ends, hgranted, hlive⟩ := hholds
  have hnamed := h.grants j ends hgranted hlive
  rw [hkey] at hnamed
  exact (congrArg OwnerKey.holder (Option.some.inj hnamed)).symm

theorem grants_update {key : OwnerKey} {ends : Millis}
    (hself : key = ⟨i, ends⟩) (hother : ∀ j, w.Holds j → j = i) (j : ℕ)
    (expiresAt : Millis)
    (hgranted : Function.update w.granted i (some ends) j = some expiresAt)
    (hlive : w.clock < expiresAt) : some key = some ⟨j, expiresAt⟩ := by
  by_cases hsame : j = i
  · subst hsame
    rw [Function.update_self] at hgranted
    cases hgranted
    rw [hself]
  · rw [Function.update_of_ne hsame] at hgranted
    exact absurd (hother j ⟨expiresAt, hgranted, hlive⟩) hsame

section

variable (h : GrantsKept w)
include h

theorem GrantsKept.setNx (i : ℕ) : GrantsKept (w.setNx i) := by
  unfold LeaseWorld.setNx
  split
  · exact h
  next hfree =>
    refine ⟨?_, h.touched_by_holder⟩
    apply grants_update rfl
    intro j hholds
    rw [h.current_of_holds hholds] at hfree
    cases hfree

theorem GrantsKept.executePexpire (hphases : PhasesKept w)
    (hphase : (w.instances i).phase = .extending version) :
    GrantsKept (w.executePexpire i version) := by
  unfold LeaseWorld.executePexpire
  split
  next hversion =>
    split
    · exact h
    next holder hcurrent =>
      obtain ⟨ends, hkey⟩ := hphases.own i version (by rw [hphase]; rfl) hversion
      obtain ⟨expiresAt, hnamed, _⟩ := current_eq_some hcurrent
      have hself : holder = i := by
        rw [hkey] at hnamed
        exact (congrArg OwnerKey.holder (Option.some.inj hnamed)).symm
      constructor
      · apply grants_update (by rw [hself])
        intro j hholds
        exact h.same_of_key hkey hholds
      · intro touch htouch j hj
        rcases List.mem_cons.mp htouch with rfl | hold
        · cases hj
          exact hself.symm
        · exact h.touched_by_holder touch hold j hj
  · exact h

theorem GrantsKept.delete (hphases : PhasesKept w)
    (hphase : (w.instances i).phase = .deleting version) (hundisturbed : version = w.version) :
    GrantsKept (w.delete i) := by
  obtain ⟨ends, hkey⟩ := hphases.own i version (by rw [hphase]; rfl) hundisturbed
  constructor
  · intro j expiresAt hgranted hlive
    by_cases hsame : j = i
    · subst hsame
      simp only [LeaseWorld.delete, Function.update_self] at hgranted
      cases hgranted
    · simp only [LeaseWorld.delete, Function.update_of_ne hsame] at hgranted
      exact absurd (h.same_of_key hkey ⟨expiresAt, hgranted, hlive⟩) hsame
  · intro touch htouch j hj
    rcases List.mem_cons.mp htouch with rfl | hold
    · obtain ⟨_, hnamed, _⟩ := current_eq_some hj
      rw [hkey] at hnamed
      exact congrArg OwnerKey.holder (Option.some.inj hnamed)
    · exact h.touched_by_holder touch hold j hj

theorem GrantsKept.setInstance (i : ℕ) (value : LeaseInstance) :
    GrantsKept (w.setInstance i value) :=
  ⟨h.grants, h.touched_by_holder⟩

theorem GrantsKept.command (hphases : PhasesKept w) {outcome : CommandOutcome}
    (hok : ReleaseUndisturbed w (.command i outcome)) (hcommand : w.command i outcome = some w') :
    GrantsKept w' := by
  unfold LeaseWorld.command at hcommand
  split at hcommand
  · cases hcommand
  · cases hcommand
  · cases hcommand
    exact (h.setNx i).setInstance i _
  · cases hcommand
    exact (h.setNx i).setInstance i _
  · cases hcommand
    exact h.setInstance i _
  · cases hcommand
    exact h.setInstance i _
  · cases hcommand
    exact h.setInstance i _
  · split at hcommand
    · cases hcommand
      exact h.setInstance i _
    · cases hcommand
      exact h.setInstance i _
  · cases hcommand
    exact h.setInstance i _
  next version hphase =>
    cases hcommand
    exact (h.executePexpire hphases hphase).setInstance i _
  next version hphase =>
    cases hcommand
    exact (h.executePexpire hphases hphase).setInstance i _
  · cases hcommand
    exact h.setInstance i _
  · split at hcommand
    · cases hcommand
      exact h.setInstance i _
    · cases hcommand
      exact h.setInstance i _
  · cases hcommand
    exact h.setInstance i _
  · cases hcommand
    exact h.setInstance i _
  next version hphase _ =>
    cases hcommand
    simp only [ReleaseUndisturbed, hphase] at hok
    exact (h.delete hphases hphase hok).setInstance i _

/-- A release that comes undisturbed removes no grant but its own. -/
theorem GrantsKept.step (hphases : PhasesKept w) (hok : ReleaseUndisturbed w action)
    (hstep : w.step action = some w') :
    GrantsKept w' := by
  cases action with
  | pass millis =>
    cases hstep
    refine ⟨fun i expiresAt hgranted hlive => ?_, h.touched_by_holder⟩
    exact h.grants i expiresAt hgranted (lt_of_le_of_lt (Nat.le_add_right _ _) hlive)
  | hold i now =>
    simp only [LeaseWorld.step] at hstep
    split at hstep
    · cases hstep
      unfold LeaseWorld.hold
      dsimp only
      split
      · exact h
      · exact h.setInstance i _
    · cases hstep
  | command i outcome => exact h.command hphases hok hstep
  | release i =>
    simp only [LeaseWorld.step] at hstep
    split at hstep
    · cases hstep
      exact h.setInstance i _
    · cases hstep
  | crash i =>
    cases hstep
    exact h.setInstance i _

end

theorem kept_of_start (hstart : LeaseStart w) : PhasesKept w ∧ GrantsKept w := by
  obtain ⟨_, htouches, hfresh, hgranted⟩ := hstart
  constructor
  · constructor
    · intro i version hseen
      rw [hfresh i] at hseen
      cases hseen
    · intro i version hown
      rw [hfresh i] at hown
      cases hown
  · constructor
    · intro i expiresAt hsome
      rw [hgranted i] at hsome
      cases hsome
    · intro touch htouch
      rw [htouches] at htouch
      exact absurd htouch List.not_mem_nil

theorem kept_of_undisturbed
    (h : ReachableVia LeaseStart LeaseWorld.step ReleaseUndisturbed w) :
    PhasesKept w ∧ GrantsKept w := by
  apply invariant (fun _ hstart => kept_of_start hstart) _ h
  intro w action w' hkept hok hstep
  exact ⟨hkept.1.step hstep, hkept.2.step hkept.1 hok hstep⟩

end Invariant

/-- As long as each release deletes a key that was not modified since its read, the owner
key is touched by its holder only and names the only holder of a lease. -/
theorem undisturbed_lease_is_exclusive {w : LeaseWorld}
    (h : ReachableVia LeaseStart LeaseWorld.step ReleaseUndisturbed w) : LeaseSound w :=
  (kept_of_undisturbed h).2.sound

/-- A server whose expired keys abort the transactions that watch them. -/
def leaseStart : LeaseWorld where
  expiryAborts := true
  clock := 0
  key := none
  version := 0
  instances := fun _ => .fresh
  touches := []
  granted := fun _ => none

theorem leaseStart_starts : LeaseStart leaseStart :=
  ⟨rfl, rfl, fun _ => rfl, fun _ => rfl⟩

/-- Instance 0 takes the lease, renews it and releases it; then instance 1 takes it. -/
def handover : List LeaseAction :=
  [.hold 0 0, .command 0 .answered, .pass 5000,
    .hold 0 5, .command 0 .answered, .command 0 .answered, .command 0 .answered,
    .release 0, .command 0 .answered, .command 0 .answered,
    .hold 1 0, .command 1 .answered]

/-- A lease that one process releases and another acquires. -/
theorem undisturbed_lease_is_exclusive_of_handover :
    ∃ w, run LeaseWorld.step leaseStart handover = some w ∧ w.current = some 1 ∧
      LeaseSound w := by
  obtain ⟨w, hw, hcurrent⟩ :
      ∃ w, run LeaseWorld.step leaseStart handover = some w ∧ w.current = some 1 :=
    exists_run (by decide +kernel)
  have halong : Along LeaseWorld.step ReleaseUndisturbed leaseStart handover := by
    decide +kernel
  have hreached := (ReachableVia.start leaseStart_starts).run halong hw
  exact ⟨w, hw, hcurrent, undisturbed_lease_is_exclusive hreached⟩

/-- The lease of instance 0 ends between the read and the delete of its release. The delete
removes the key of instance 1, and instance 2 takes the lease as well. -/
def lateRelease : List LeaseAction :=
  [.hold 0 0, .command 0 .answered, .pass 14999,
    .release 0, .command 0 .answered, .pass 1,
    .hold 1 0, .command 1 .answered, .command 0 .answered,
    .hold 2 0, .command 2 .answered]

/-- A lease expires between the reading of its holder and its removal. -/
theorem late_release_deletes_another_lease :
    ∃ w, Reachable LeaseStart LeaseWorld.step w ∧
      (∃ touch ∈ w.touches, touch.sender = 0 ∧ touch.holder = some 1) ∧
      (∃ i j, i ≠ j ∧ w.Holds i ∧ w.Holds j) ∧ ¬ LeaseSound w := by
  obtain ⟨w, hw, htouches, hclock, hfirst, hsecond⟩ :
      ∃ w, run LeaseWorld.step leaseStart lateRelease = some w ∧ w.touches = [⟨0, some 1⟩] ∧
        w.clock = 15000 ∧ w.granted 1 = some 30000 ∧ w.granted 2 = some 30000 :=
    exists_run (by decide +kernel)
  have htouch : (⟨0, some 1⟩ : LeaseTouch) ∈ w.touches := by
    rw [htouches]
    exact List.mem_singleton_self _
  refine ⟨w, reachable_of_run leaseStart_starts hw, ⟨_, htouch, rfl, rfl⟩, ?_, ?_⟩
  · refine ⟨1, 2, by decide, ⟨30000, hfirst, ?_⟩, ⟨30000, hsecond, ?_⟩⟩
    · rw [hclock]
      decide
    · rw [hclock]
      decide
  · intro hsound
    exact absurd (hsound.touched_by_holder _ htouch 1 rfl) (by decide)

end KAssetTrader.NhPlug
