import KAssetTrader.Library.Dict

/-!
Rows under read-committed transactions. A session sees the committed rows with its own
writes over them. A row that one session has written is locked until that session commits or
rolls back, and rows are never deleted. What a session makes of a committed row is bounded by
a relation that the writes keep.
-/

namespace KAssetTrader

open Dict

universe u v

variable {κ : Type u} {ν : Type v} [DecidableEq κ]

namespace Dict

def overlay (d top : Dict κ ν) : Dict κ ν :=
  top.entries.foldl (fun result entry => result.set entry.1 entry.2) d

theorem get?_overlay (d top : Dict κ ν) (k : κ) :
    (d.overlay top).get? k = (top.get? k).or (d.get? k) := by
  have hfold : ∀ (entries : List (κ × ν)) (base : Dict κ ν), (entries.map Prod.fst).Nodup →
      (entries.foldl (fun result entry => result.set entry.1 entry.2) base).get? k =
        ((entries.find? (·.1 = k)).map Prod.snd).or (base.get? k) := by
    intro entries
    induction entries with
    | nil =>
      intro base _
      rfl
    | cons entry rest ih =>
      intro base hnodup
      rw [List.map_cons, List.nodup_cons] at hnodup
      rw [List.foldl_cons, ih _ hnodup.2, get?_set]
      by_cases hkey : entry.1 = k
      · have hrest : rest.find? (·.1 = k) = none := by
          refine List.find?_eq_none.mpr fun e he => ?_
          have hne : e.1 ≠ k := by
            intro heq
            exact hnodup.1 (List.mem_map.mpr ⟨e, he, heq.trans hkey.symm⟩)
          simpa using hne
        simp [hkey, hrest]
      · simp [hkey, Ne.symm hkey]
  exact hfold top.entries d top.keys_nodup

@[simp] theorem overlay_empty (d : Dict κ ν) : d.overlay empty = d := rfl

end Dict

/-- The rows of a table, with what each session has written and not committed. -/
structure Rows (κ : Type u) (ν : Type v) where
  committed : Dict κ ν := Dict.empty
  own : ℕ → Dict κ ν := fun _ => Dict.empty
  /-- The session that holds the lock of a row. -/
  writer : Dict κ ℕ := Dict.empty

namespace Rows

section Operations

variable (rows : Rows κ ν) (i : ℕ)

def view : Dict κ ν := rows.committed.overlay (rows.own i)

def viewOf (sessions : List ℕ) : Dict κ ν :=
  sessions.foldl (fun result j => result.overlay (rows.own j)) rows.committed

/-- Make the rows that a session sees into others; it waits, and the step is not enabled,
while another session holds the lock of a row that changes. -/
def write [DecidableEq ν] (after : Dict κ ν) : Option (Rows κ ν) :=
  let changed := after.filter fun k row => (rows.view i).get? k ≠ some row
  if ∀ k ∈ changed.keys, ∀ holder ∈ rows.writer.get? k, holder = i then
    some
      { rows with
        own := Function.update rows.own i ((rows.own i).overlay changed)
        writer := rows.writer.overlay (changed.mapValues fun _ _ => i) }
  else none

/-- The locks after a session has ended its transaction. -/
def released : Dict κ ℕ := rows.writer.filter fun _ holder => holder ≠ i

def commit : Rows κ ν :=
  { committed := rows.view i
    own := Function.update rows.own i Dict.empty
    writer := rows.released i }

def rollback : Rows κ ν :=
  { rows with
    own := Function.update rows.own i Dict.empty
    writer := rows.released i }

end Operations

variable {rows after : Rows κ ν} {k : κ} {row : ν} {i j : ℕ}

theorem get?_view : (rows.view i).get? k = ((rows.own i).get? k).or (rows.committed.get? k) :=
  get?_overlay _ _ _

theorem get?_view_of_own (h : (rows.own i).get? k = some row) :
    (rows.view i).get? k = some row := by
  rw [get?_view, h]
  rfl

theorem get?_view_of_committed (h : (rows.own i).get? k = none) :
    (rows.view i).get? k = rows.committed.get? k := by
  rw [get?_view, h]
  rfl

theorem of_get?_viewOf {sessions : List ℕ} (h : (rows.viewOf sessions).get? k = some row) :
    (∃ j ∈ sessions, (rows.own j).get? k = some row) ∨
      (rows.committed.get? k = some row ∧ ∀ j ∈ sessions, (rows.own j).get? k = none) := by
  have hfold : ∀ (sessions : List ℕ) (base : Dict κ ν),
      (sessions.foldl (fun result j => result.overlay (rows.own j)) base).get? k = some row →
      (∃ j ∈ sessions, (rows.own j).get? k = some row) ∨
        (base.get? k = some row ∧ ∀ j ∈ sessions, (rows.own j).get? k = none) := by
    intro sessions
    induction sessions with
    | nil =>
      intro base hbase
      exact .inr ⟨hbase, List.forall_mem_nil _⟩
    | cons session rest ih =>
      intro base hseen
      rcases ih _ hseen with ⟨j, hj, hown⟩ | ⟨hbase, hnone⟩
      · exact .inl ⟨j, List.mem_cons_of_mem _ hj, hown⟩
      · rw [get?_overlay] at hbase
        cases hsession : (rows.own session).get? k with
        | some written =>
          rw [hsession] at hbase
          exact .inl ⟨session, List.mem_cons_self, hsession.trans hbase⟩
        | none =>
          rw [hsession] at hbase
          exact .inr ⟨hbase, List.forall_mem_cons.mpr ⟨hsession, hnone⟩⟩
  exact hfold sessions rows.committed h

@[simp] theorem own_commit : (rows.commit i).own = Function.update rows.own i Dict.empty := rfl

omit [DecidableEq κ] in
@[simp] theorem own_rollback : (rows.rollback i).own = Function.update rows.own i empty :=
  rfl

omit [DecidableEq κ] in
@[simp] theorem committed_rollback : (rows.rollback i).committed = rows.committed := rfl

@[simp] theorem committed_commit : (rows.commit i).committed = rows.view i := rfl

theorem view_rollback : (rows.rollback i).view i = rows.committed := by
  simp [view]

theorem view_rollback_other (h : j ≠ i) : (rows.rollback i).view j = rows.view j := by
  simp [view, h]

theorem view_commit : (rows.commit i).view i = rows.view i := by
  simp [view]

theorem get?_view_commit_other (h : j ≠ i) :
    ((rows.commit i).view j).get? k = ((rows.own j).get? k).or ((rows.view i).get? k) := by
  rw [get?_view]
  simp [h]

section Write

variable [DecidableEq ν] {seen : Dict κ ν}

variable (h : rows.write i seen = some after)
include h

theorem own_write_other (hj : j ≠ i) :
    after.own j = rows.own j := by
  unfold write at h
  simp only at h
  split at h
  · cases h
    exact Function.update_of_ne hj _ _
  · cases h

theorem committed_write :
    after.committed = rows.committed := by
  unfold write at h
  simp only at h
  split at h
  · cases h
    rfl
  · cases h

theorem view_write_other (hj : j ≠ i) :
    after.view j = rows.view j := by
  rw [view, view, own_write_other h hj, committed_write h]

theorem get?_view_write
    (hkept : ∀ k row, (rows.view i).get? k = some row → (seen.get? k).isSome = true) :
    (after.view i).get? k = seen.get? k := by
  have hcommitted := committed_write h
  unfold write at h
  simp only at h
  split at h
  · cases h
    rw [get?_view]
    simp only [Function.update_self, get?_overlay]
    cases hchanged : (seen.filter fun k row => (rows.view i).get? k ≠ some row).get? k with
    | some row =>
      obtain ⟨hseen, -⟩ := seen.get?_filter_eq_some.mp hchanged
      rw [hseen]
      rfl
    | none =>
      rw [Option.none_or, ← get?_view]
      cases hseen : seen.get? k with
      | some row =>
        by_contra hne
        have hsome : (seen.filter fun k row => (rows.view i).get? k ≠ some row).get? k =
            some row := seen.get?_filter_eq_some.mpr ⟨hseen, decide_eq_true hne⟩
        rw [hchanged] at hsome
        cases hsome
      | none =>
        cases hview : (rows.view i).get? k with
        | none => rfl
        | some row =>
          have hsome := hkept k row hview
          rw [hseen] at hsome
          cases hsome
  · cases h

end Write

/-- Every row that a session has written is locked by it, and what it has made of a committed
row is one of the changes that the relation allows. -/
structure Locked (R : ν → ν → Prop) (rows : Rows κ ν) : Prop where
  locked : ∀ i k row, (rows.own i).get? k = some row → rows.writer.get? k = some i
  continued : ∀ i k row before, (rows.own i).get? k = some row →
    rows.committed.get? k = some before → R before row

variable {R : ν → ν → Prop} {other : ν}

variable (h : rows.Locked R)
include h

theorem Locked.unique (hi : (rows.own i).get? k = some row) (hj : (rows.own j).get? k = some other)
    : i = j :=
  Option.some.inj ((h.locked i k row hi).symm.trans (h.locked j k other hj))

theorem Locked.own_none (hi : (rows.own i).get? k = some row) (hne : j ≠ i) :
    (rows.own j).get? k = none := by
  cases hj : (rows.own j).get? k with
  | none => rfl
  | some other => exact absurd (h.unique hj hi) hne

theorem Locked.write [DecidableEq ν] {seen : Dict κ ν} (hR : ∀ a b c, R a b → R b c → R a c)
    (hkept : ∀ k row, (rows.view i).get? k = some row → ∃ next, seen.get? k = some next ∧ R row
      next) (hwrite : rows.write i seen = some after) : after.Locked R := by
  have hview : ∀ k, (after.view i).get? k = seen.get? k := by
    intro k
    apply get?_view_write hwrite
    intro k row hrow
    obtain ⟨next, hnext, -⟩ := hkept k row hrow
    rw [hnext]
    rfl
  have hcommitted := committed_write hwrite
  constructor
  · intro j k row hrow
    unfold Rows.write at hwrite
    simp only at hwrite
    split at hwrite
    next hfree =>
      cases hwrite
      simp only at hrow ⊢
      rw [get?_overlay, get?_mapValues]
      by_cases hj : j = i
      · subst hj
        rw [Function.update_self, get?_overlay] at hrow
        cases hchanged : (seen.filter fun k row => (rows.view j).get? k ≠ some row).get? k with
        | some next => rfl
        | none =>
          rw [hchanged, Option.none_or] at hrow
          exact h.locked j k row hrow
      · rw [Function.update_of_ne hj] at hrow
        have hlocked := h.locked j k row hrow
        cases hchanged : (seen.filter fun k row => (rows.view i).get? k ≠ some row).get? k with
        | some next =>
          have hmem : k ∈ (seen.filter fun k row => (rows.view i).get? k ≠ some row).keys := by
            by_contra hnot
            rw [(get?_eq_none _).mpr hnot] at hchanged
            cases hchanged
          exact absurd (hfree k hmem j hlocked) hj
        | none => exact hlocked
    · cases hwrite
  · intro j k row before hrow hbefore
    rw [hcommitted] at hbefore
    by_cases hj : j = i
    · subst hj
      have hseen := hview k
      rw [get?_view_of_own hrow] at hseen
      cases hown : (rows.own j).get? k with
      | some middle =>
        obtain ⟨next, hnext, hstep⟩ := hkept k middle (get?_view_of_own hown)
        cases hseen.trans hnext
        exact hR _ _ _ (h.continued j k middle before hown hbefore) hstep
      | none =>
        obtain ⟨next, hnext, hstep⟩ :=
          hkept k before ((get?_view_of_committed hown).trans hbefore)
        cases hseen.trans hnext
        exact hstep
    · rw [own_write_other hwrite hj] at hrow
      exact h.continued j k row before hrow hbefore

theorem Locked.released (hj : j ≠ i) (hrow : (rows.own j).get? k = some row) :
    (rows.released i).get? k = some j :=
  (get?_filter_eq_some _).mpr ⟨h.locked j k row hrow, decide_eq_true hj⟩

theorem Locked.rollback (i : ℕ) : (rows.rollback i).Locked R := by
  constructor
  · intro j k row hrow
    by_cases hj : j = i
    · subst hj
      simp at hrow
    · rw [own_rollback, Function.update_of_ne hj] at hrow
      exact h.released hj hrow
  · intro j k row before hrow hbefore
    by_cases hj : j = i
    · subst hj
      simp at hrow
    · rw [own_rollback, Function.update_of_ne hj] at hrow
      exact h.continued j k row before hrow hbefore

theorem Locked.commit (i : ℕ) : (rows.commit i).Locked R := by
  constructor
  · intro j k row hrow
    by_cases hj : j = i
    · subst hj
      simp at hrow
    · rw [own_commit, Function.update_of_ne hj] at hrow
      exact h.released hj hrow
  · intro j k row before hrow hbefore
    by_cases hj : j = i
    · subst hj
      simp at hrow
    · rw [own_commit, Function.update_of_ne hj] at hrow
      rw [committed_commit, get?_view_of_committed (h.own_none hrow (Ne.symm hj))] at hbefore
      exact h.continued j k row before hrow hbefore

end Rows

end KAssetTrader
