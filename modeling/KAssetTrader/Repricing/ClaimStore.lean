import KAssetTrader.Repricing.ClaimTable

/-!
Any number of ticks on one claim table, statement by statement. A call of `try_claim`
is three statements: the select, the conditional update of a lapsed claim, and the
insert with its commit. The other calls are one statement each. A row that a
transaction has updated and not yet committed is locked: a statement that would write
it waits, which here is a step that is not enabled. The time of a call is any value, so
the clocks of the ticks are in no order here; runs with nondecreasing clocks are among
these runs.
-/

namespace KAssetTrader.Repricing

open Dict Transition

/-- The committed table and the transactions under way, by the process that runs them.
The rows that were inserted for each handle are recorded; nothing in the code reads the
record. -/
structure ClaimWorld where
  rows : Claims := Dict.empty
  nextId : ℕ := 1
  calls : Dict ℕ Progress := Dict.empty
  tokens : List ℕ := []
  issued : List (ℕ × ClaimHandle) := []

def Progress.lock : Progress → Option ℕ
  | .expiring .. => none
  | .inserting _ _ expired => expired

def ClaimWorld.locked (w : ClaimWorld) (id : ℕ) : Bool :=
  w.calls.values.any fun progress => decide (progress.lock = some id)

def ClaimWorld.unlocked (w : ClaimWorld) (p : ClaimRow → Bool) : Bool :=
  w.rows.entries.all fun e => !p e.2 || !w.locked e.1

inductive ClaimAction where
  /-- the select of a new call -/
  | select (tick : ℕ) (call : ClaimCall)
  | expire (tick : ℕ)
  /-- the insert and the commit, with the token that was drawn for the claim -/
  | insert (tick ownerToken : ℕ)
  /-- a crash: the transaction is rolled back -/
  | crash (tick : ℕ)
  | finalise (handle : ClaimHandle) (outcome : SessionOutcome) (now : Instant)
  | release (handle : ClaimHandle)
  | sweep (now : Instant)

/-- One statement of one tick. A `finalise` or `release` that raises leaves everything
as it is; a `try_claim` that returns no claim ends. -/
def ClaimWorld.step (w : ClaimWorld) : ClaimAction → Option ClaimWorld
  | .select tick call =>
    if w.calls.get? tick = none then
      match readLatest w.rows call with
      | none => some w
      | some progress => some { w with calls := w.calls.set tick progress }
    else none
  | .expire tick =>
    match w.calls.get? tick with
    | some (.expiring call id generation) =>
      if w.locked id then none
      else some { w with calls := w.calls.set tick (afterExpiry w.rows call id generation) }
    | _ => none
  | .insert tick ownerToken =>
    match w.calls.get? tick with
    | some (.inserting call generation expired) =>
      if ownerToken ∈ w.tokens then none
      else if { w with calls := w.calls.erase tick }.unlocked
          (·.conflicts (call.row generation ownerToken)) then
        match commitClaim w.rows w.nextId call generation expired ownerToken with
        | .error _ => some { w with calls := w.calls.erase tick, nextId := w.nextId + 1 }
        | .ok rows => some
            { rows := rows
              nextId := w.nextId + 1
              calls := w.calls.erase tick
              tokens := ownerToken :: w.tokens
              issued := (w.nextId, call.handle generation ownerToken) :: w.issued }
      else none
    | _ => none
  | .crash tick => some { w with calls := w.calls.erase tick }
  | .finalise handle outcome now =>
    if w.unlocked (·.heldBy handle) then
      match finalise w.rows handle outcome now with
      | .error _ => some w
      | .ok rows => some { w with rows := rows }
    else none
  | .release handle =>
    if w.unlocked (·.heldBy handle) then
      match release w.rows handle with
      | .error _ => some w
      | .ok rows => some { w with rows := rows }
    else none
  | .sweep now =>
    if w.unlocked (·.lapsed now) then some { w with rows := sweepExpired w.rows now } else none

/-- An empty table and no transaction under way. -/
def ClaimStart (w : ClaimWorld) : Prop := w = {}

section Invariant

def Progress.Valid (rows : Claims) (nextId : ℕ) : Progress → Prop
  | .expiring call id generation => id < nextId ∧ ∀ row, rows.get? id = some row →
      row.eventUuid = call.eventUuid ∧ row.generation = generation
  | .inserting call generation none => Follows rows call.eventUuid generation
  | .inserting call generation (some id) => ∃ row, rows.get? id = some row ∧
      row.eventUuid = call.eventUuid ∧ row.generation + 1 = generation ∧ row.state = .started

variable {rows t : Claims} {nextId : ℕ} {progress : Progress} {call : ClaimCall}

variable {p : ℕ → ClaimRow → Bool} {w : ClaimWorld}

theorem Follows.writes {event : EventUuid} {generation : ℕ} (h : Follows rows event generation)
    (hw : Writes p rows t) : Follows t event generation := by
  rcases h with hone | ⟨id, row, hrow, hevent, hnext, hstate⟩
  · exact .inl hone
  · exact .inr ⟨id, row, hw.ended hrow (by simp [hstate]), hevent, hnext, hstate⟩

theorem Progress.Valid.writes (h : progress.Valid rows nextId) (hw : Writes p rows t)
    (hlock : ∀ id row, progress.lock = some id → rows.get? id = some row → p id row = false) :
    progress.Valid t nextId := by
  cases progress with
  | expiring call id generation =>
    refine ⟨h.1, fun r hr => ?_⟩
    obtain ⟨row, hrow, rfl | hcloses⟩ := hw.before hr
    · exact h.2 _ hrow
    · rw [hcloses.eventUuid, hcloses.generation]
      exact h.2 row hrow
  | inserting call generation expired =>
    cases expired with
    | none => exact Follows.writes h hw
    | some id =>
      obtain ⟨row, hrow, hrest⟩ := h
      exact ⟨row, hw.frame id row hrow (hlock id row rfl hrow), hrest⟩

theorem Progress.Valid.insert {new : ClaimRow} (h : progress.Valid rows nextId)
    (hids : ∀ id row, rows.get? id = some row → id < nextId) :
    progress.Valid (rows.set nextId new) (nextId + 1) := by
  have hold : ∀ {id row}, rows.get? id = some row →
      (rows.set nextId new).get? id = some row := by
    intro id row hrow
    rw [get?_set, if_neg (Nat.ne_of_lt (hids id row hrow)), hrow]
  cases progress with
  | expiring call id generation =>
    refine ⟨Nat.lt_succ_of_lt h.1, fun r hr => ?_⟩
    rw [get?_set, if_neg (Nat.ne_of_lt h.1)] at hr
    exact h.2 r hr
  | inserting call generation expired =>
    cases expired with
    | none =>
      rcases h with hone | ⟨id, row, hrow, hrest⟩
      · exact .inl hone
      · exact .inr ⟨id, row, hold hrow, hrest⟩
    | some id =>
      obtain ⟨row, hrow, hrest⟩ := h
      exact ⟨row, hold hrow, hrest⟩

/-- A key that is spent on an insert that failed changes nothing. -/
theorem Progress.Valid.spent (h : progress.Valid rows nextId) :
    progress.Valid rows (nextId + 1) := by
  cases progress with
  | expiring call id generation => exact ⟨Nat.lt_succ_of_lt h.1, h.2⟩
  | inserting call generation expired =>
    cases expired with
    | none => exact h
    | some id => exact h

theorem readLatest_valid (hids : ∀ id row, rows.get? id = some row → id < nextId)
    (h : readLatest rows call = some progress) :
    progress.Valid rows nextId ∧ progress.lock = none := by
  cases progress with
  | expiring call' id generation =>
    obtain ⟨rfl, row, hrow, hevent, hgeneration, _⟩ := readLatest_expiring h
    refine ⟨⟨hids id row hrow, fun r hr => ?_⟩, rfl⟩
    cases hrow.symm.trans hr
    exact ⟨hevent, hgeneration⟩
  | inserting call' generation expired =>
    obtain ⟨rfl, rfl, hfollows⟩ := readLatest_inserting h
    exact ⟨hfollows, rfl⟩

structure Names (rows : Claims) (id : ℕ) (handle : ClaimHandle) : Prop where
  iff : ∀ j row, rows.get? j = some row →
    ((row.eventUuid = handle.eventUuid ∧ row.generation = handle.generation ∧
      row.ownerToken = handle.ownerToken) ↔ j = id)

theorem Names.writes {id : ℕ} {handle : ClaimHandle} (h : Names rows id handle)
    (hw : Writes p rows t) : Names t id handle := by
  refine ⟨fun j r hr => ?_⟩
  obtain ⟨row, hrow, rfl | hcloses⟩ := hw.before hr
  · exact h.iff j _ hrow
  · rw [hcloses.eventUuid, hcloses.generation, hcloses.ownerToken]
    exact h.iff j row hrow

structure Kept (w : ClaimWorld) : Prop where
  table : Shape w.rows w.nextId w.tokens
  calls : ∀ tick progress, w.calls.get? tick = some progress → progress.Valid w.rows w.nextId
  locks : ∀ tick tick' progress progress' id, w.calls.get? tick = some progress →
    w.calls.get? tick' = some progress' → progress.lock = some id → progress'.lock = some id →
      tick = tick'
  issued : ∀ id handle, (id, handle) ∈ w.issued → id < w.nextId ∧ handle.ownerToken ∈ w.tokens
  named : ∀ id handle, (id, handle) ∈ w.issued → Names w.rows id handle

theorem ClaimWorld.locked_iff {id : ℕ} : w.locked id = true ↔
    ∃ tick progress, w.calls.get? tick = some progress ∧ progress.lock = some id := by
  simp only [ClaimWorld.locked, List.any_eq_true, values, List.mem_map, Prod.exists,
    get?_eq_some, decide_eq_true_eq]
  constructor
  · rintro ⟨progress, ⟨tick, _, hmem, rfl⟩, hlock⟩
    exact ⟨tick, _, hmem, hlock⟩
  · rintro ⟨tick, progress, hmem, hlock⟩
    exact ⟨progress, ⟨tick, progress, hmem, rfl⟩, hlock⟩

theorem ClaimWorld.unlocked_iff {p : ClaimRow → Bool} :
    w.unlocked p = true ↔ ∀ tick progress id row, w.calls.get? tick = some progress →
      progress.lock = some id → w.rows.get? id = some row → p row = false := by
  have hlocked : w.unlocked p = true ↔
      ∀ id row, w.rows.get? id = some row → w.locked id = true → p row = false := by
    simp only [ClaimWorld.unlocked, List.all_eq_true, Prod.forall, get?_eq_some,
      Bool.or_eq_true, Bool.not_eq_eq_eq_not, Bool.not_true]
    constructor
    · intro h id row hmem hlocked
      rcases h id row hmem with hp | hfree
      · exact hp
      · rw [hlocked] at hfree
        cases hfree
    · intro h id row hmem
      cases hlocked : w.locked id with
      | false => exact .inr rfl
      | true => exact .inl (h id row hmem hlocked)
  rw [hlocked]
  constructor
  · intro h tick progress id row hcall hlock hrow
    exact h id row hrow (ClaimWorld.locked_iff.mpr ⟨tick, progress, hcall, hlock⟩)
  · intro h id row hrow hlocked
    obtain ⟨tick, progress, hcall, hlock⟩ := ClaimWorld.locked_iff.mp hlocked
    exact h tick progress id row hcall hlock hrow

theorem Kept.writes {p : ClaimRow → Bool} (h : Kept w) (hw : Writes (fun _ row => p row) w.rows t)
    (hfree : w.unlocked p = true) :
    Kept { w with rows := t } := by
  refine ⟨h.table.writes hw, fun tick progress hcall => ?_, h.locks, h.issued,
    fun id handle hmem => (h.named id handle hmem).writes hw⟩
  refine (h.calls tick progress hcall).writes hw fun id row hlock hrow => ?_
  exact ClaimWorld.unlocked_iff.mp hfree tick progress id row hcall hlock hrow

/-- A transaction that ends, or moves on without taking a lock. -/
theorem Kept.erase (h : Kept w) (tick : ℕ) :
    Kept { w with calls := w.calls.erase tick } := by
  refine ⟨h.table, fun tick' progress hcall => ?_, ?_, h.issued, h.named⟩
  · exact h.calls tick' progress (of_get?_erase hcall).2
  · intro tick₁ tick₂ progress₁ progress₂ id h₁ h₂
    exact h.locks tick₁ tick₂ progress₁ progress₂ id (of_get?_erase h₁).2
      (of_get?_erase h₂).2

theorem Kept.set (h : Kept w) (tick : ℕ) (hvalid : progress.Valid w.rows w.nextId)
    (hlock : ∀ id, progress.lock = some id → w.locked id = false) :
    Kept { w with calls := w.calls.set tick progress } := by
  have hfree : ∀ tick' progress' id, w.calls.get? tick' = some progress' →
      progress.lock = some id → progress'.lock ≠ some id := by
    intro tick' progress' id hcall hid hid'
    have hlocked := ClaimWorld.locked_iff.mpr ⟨tick', progress', hcall, hid'⟩
    rw [hlock id hid] at hlocked
    cases hlocked
  refine ⟨h.table, fun tick' progress' hcall => ?_, ?_, h.issued, h.named⟩
  · rcases of_get?_set hcall with ⟨_, rfl⟩ | ⟨_, hcall⟩
    · exact hvalid
    · exact h.calls tick' progress' hcall
  · intro tick₁ tick₂ progress₁ progress₂ id h₁ h₂ hid₁ hid₂
    rcases of_get?_set h₁ with ⟨rfl, rfl⟩ | ⟨_, h₁'⟩ <;>
      rcases of_get?_set h₂ with ⟨rfl, rfl⟩ | ⟨_, h₂'⟩
    · rfl
    · exact absurd hid₂ (hfree tick₂ progress₂ id h₂' hid₁)
    · exact absurd hid₁ (hfree tick₁ progress₁ id h₁' hid₂)
    · exact h.locks tick₁ tick₂ progress₁ progress₂ id h₁' h₂' hid₁ hid₂

end Invariant

variable {w w' : ClaimWorld}

variable {rows : Claims} {call : ClaimCall} {expired : Option ℕ} {nextId : ℕ} {tokens : List ℕ}

theorem ownView_spec {nextId generation : ℕ}
    (h : (Progress.inserting call generation expired).Valid rows nextId) :
    Writes (fun key row => decide (expired = some key ∧ row.state = .started)) rows
        (ownView rows call expired) ∧
      Follows (ownView rows call expired) call.eventUuid generation := by
  refine ⟨ownView_writes, ?_⟩
  cases expired with
  | none => exact h
  | some id =>
    obtain ⟨row, hrow, hevent, hnext, hstarted⟩ := h
    exact ownView_follows hrow hevent hnext hstarted

theorem Names.insert {rows t : Claims} {new : ClaimRow} {id : ℕ} {handle : ClaimHandle}
    (h : Names rows id handle) (hid : id < nextId) (htoken : handle.ownerToken ∈ tokens)
    (hfresh : new.ownerToken ∉ tokens) (ht : t = rows.set nextId new) : Names t id handle := by
  subst ht
  refine ⟨fun j r hr => ?_⟩
  rcases of_get?_set hr with ⟨rfl, rfl⟩ | ⟨_, hr⟩
  · constructor
    · rintro ⟨_, _, heq⟩
      exact absurd (heq ▸ htoken) hfresh
    · intro hj
      omega
  · exact h.iff j r hr

theorem Names.new {rows t : Claims} {generation ownerToken : ℕ} (hshape : Shape rows nextId tokens)
    (hfresh : ownerToken ∉ tokens) (ht : t = rows.set nextId (call.row generation ownerToken)) :
    Names t nextId (call.handle generation ownerToken) := by
  subst ht
  refine ⟨fun j r hr => ?_⟩
  rcases of_get?_set hr with ⟨rfl, rfl⟩ | ⟨hne, hr⟩
  · exact iff_of_true ⟨rfl, rfl, rfl⟩ rfl
  · refine iff_of_false (fun hkey => hfresh ?_) hne
    have htoken := hshape.tokens j r hr
    rw [hkey.2.2] at htoken
    exact htoken

theorem Kept.insert {tick ownerToken generation : ℕ} (h : Kept w)
    (hcall : w.calls.get? tick = some (.inserting call generation expired))
    (hfresh : ownerToken ∉ w.tokens)
    (hok : commitClaim w.rows w.nextId call generation expired ownerToken = .ok rows) :
    Kept { rows := rows
           nextId := w.nextId + 1
           calls := w.calls.erase tick
           tokens := ownerToken :: w.tokens
           issued := (w.nextId, call.handle generation ownerToken) :: w.issued } := by
  obtain ⟨hwrites, hfollows⟩ := ownView_spec (h.calls tick _ hcall)
  have hview := h.table.writes hwrites
  have ht := (insertRow_ok_iff.mp hok).2
  refine ⟨hview.insert hok hfresh hfollows, fun tick' progress hcall' => ?_, (h.erase tick).locks,
    fun id handle hmem => ?_, fun id handle hmem => ?_⟩
  · obtain ⟨hne, hcall'⟩ := of_get?_erase hcall'
    have hvalid : progress.Valid (ownView w.rows call expired) w.nextId := by
      refine (h.calls tick' progress hcall').writes hwrites fun id row hlock _ => ?_
      apply decide_eq_false
      rintro ⟨hexpired, _⟩
      exact hne (h.locks tick' tick progress _ id hcall' hcall hlock hexpired)
    rw [ht]
    exact hvalid.insert hview.ids
  · rcases List.mem_cons.mp hmem with heq | hmem
    · cases heq
      exact ⟨Nat.lt_succ_self _, List.mem_cons_self⟩
    · obtain ⟨hid, htoken⟩ := h.issued id handle hmem
      exact ⟨Nat.lt_succ_of_lt hid, List.mem_cons_of_mem _ htoken⟩
  · rcases List.mem_cons.mp hmem with heq | hmem
    · cases heq
      exact Names.new hview hfresh ht
    · obtain ⟨hid, htoken⟩ := h.issued id handle hmem
      exact Names.insert ((h.named id handle hmem).writes hwrites) hid htoken hfresh ht

/-- The claim that a call has read as lapsed is neither finalised nor released before the
call comes to expire it. -/
def ExpiryFindsClaim (w : ClaimWorld) : ClaimAction → Prop
  | .expire tick =>
    match w.calls.get? tick with
    | some (.expiring _ id _) =>
      ((w.rows.get? id).any fun row =>
        decide (row.state = .started ∨ row.state = .expiredUnprocessed)) = true
    | _ => True
  | _ => True

instance (w : ClaimWorld) (action : ClaimAction) : Decidable (ExpiryFindsClaim w action) := by
  unfold ExpiryFindsClaim
  split
  · split <;> infer_instance
  · infer_instance

/-- After the conditional update the transaction holds the claim it read, or that claim
had expired already. -/
theorem afterExpiry_valid {nextId id generation : ℕ}
    (h : (Progress.expiring call id generation).Valid rows nextId)
    (hfinds : ((rows.get? id).any fun row => decide (row.state = .started ∨ row.state =
      .expiredUnprocessed)) = true) :
    (afterExpiry rows call id generation).Valid rows nextId ∧
      ∀ locked, (afterExpiry rows call id generation).lock = some locked → locked = id := by
  obtain ⟨row, hrow, hstate⟩ := (Option.any_eq_true _ _).mp hfinds
  obtain ⟨hevent, hgeneration⟩ := h.2 row hrow
  unfold afterExpiry expiryMatches
  rw [hrow, Option.any_some]
  rcases of_decide_eq_true hstate with hstarted | hexpired
  · rw [if_pos (decide_eq_true hstarted)]
    exact ⟨⟨row, hrow, hevent, by rw [hgeneration], hstarted⟩,
      fun locked hlocked => (Option.some.inj hlocked).symm⟩
  · have hnot : ¬ decide (row.state = .started) = true := by
      rw [hexpired]
      decide
    rw [if_neg hnot]
    exact ⟨.inr ⟨id, row, hrow, hevent, by rw [hgeneration], hexpired⟩,
      fun locked hlocked => by cases hlocked⟩

/-- A claim that is found when it expires keeps one owner for each repricing. -/
theorem Kept.step {action : ClaimAction} (h : Kept w) (hok : ExpiryFindsClaim w action)
    (hstep : w.step action = some w') : Kept w' := by
  cases action with
  | select tick call =>
    simp only [ClaimWorld.step] at hstep
    split at hstep
    · split at hstep
      · cases hstep
        exact h
      next progress hread =>
        cases hstep
        obtain ⟨hvalid, hlock⟩ := readLatest_valid h.table.ids hread
        exact h.set tick hvalid fun id hid => by rw [hlock] at hid; cases hid
    · cases hstep
  | expire tick =>
    simp only [ClaimWorld.step] at hstep
    split at hstep
    next call id generation hcall =>
      split at hstep
      · cases hstep
      next hfree =>
        cases hstep
        simp only [ExpiryFindsClaim, hcall] at hok
        obtain ⟨hvalid, hlock⟩ := afterExpiry_valid (h.calls tick _ hcall) hok
        refine h.set tick hvalid fun locked hlocked => ?_
        rw [hlock locked hlocked]
        exact Bool.eq_false_of_not_eq_true hfree
    · cases hstep
  | insert tick ownerToken =>
    simp only [ClaimWorld.step] at hstep
    split at hstep
    next call generation expired hcall =>
      split at hstep
      · cases hstep
      next hfresh =>
        split at hstep
        · split at hstep
          · cases hstep
            have herased := h.erase tick
            refine ⟨⟨?_, herased.table.positive, herased.table.tokens, herased.table.keys,
              herased.table.oneSymbol, herased.table.filled⟩, ?_, herased.locks, ?_,
              herased.named⟩
            · exact fun id row hrow => Nat.lt_succ_of_lt (herased.table.ids id row hrow)
            · exact fun tick' progress hcall' => (herased.calls tick' progress hcall').spent
            · exact fun id handle hmem =>
                ⟨Nat.lt_succ_of_lt (herased.issued id handle hmem).1,
                  (herased.issued id handle hmem).2⟩
          next rows hcommit =>
            cases hstep
            exact h.insert hcall hfresh hcommit
        · cases hstep
    · cases hstep
  | crash tick =>
    cases hstep
    exact h.erase tick
  | finalise handle outcome now =>
    simp only [ClaimWorld.step] at hstep
    split at hstep
    next hfree =>
      split at hstep
      · cases hstep
        exact h
      next rows hfinalise =>
        cases hstep
        exact h.writes (finalise_writes hfinalise) hfree
    · cases hstep
  | release handle =>
    simp only [ClaimWorld.step] at hstep
    split at hstep
    next hfree =>
      split at hstep
      · cases hstep
        exact h
      next rows hrelease =>
        cases hstep
        exact h.writes (release_writes hrelease) hfree
    · cases hstep
  | sweep now =>
    simp only [ClaimWorld.step] at hstep
    split at hstep
    next hfree =>
      cases hstep
      exact h.writes sweepExpired_writes hfree
    · cases hstep

end KAssetTrader.Repricing
