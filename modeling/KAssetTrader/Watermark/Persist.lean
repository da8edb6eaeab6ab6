import KAssetTrader.Watermark.Evaluate

/-!
The rows of the shadow high watermark and the write of an evaluation. The first
state of a day is inserted unless its key has a row already; a later one replaces
the row only where that still has the version that was evaluated. A write that
does not happen leaves every row as it was, and succeeds only where the row
already is the state to be written.
-/

namespace KAssetTrader.Watermark

open Paper Decimal

def column (equity : Decimal) : Decimal := equity.quantizeHalfUp 8

def ShadowHighWatermarkState.equities (state : ShadowHighWatermarkState) : List Decimal :=
  [state.sessionOpeningEquity, state.referenceEquity, state.peakEquity, state.currentEquity]

/-- The table can hold the equities of a state: none overflows its column, and
none becomes zero there. -/
def ShadowHighWatermarkState.Storable (state : ShadowHighWatermarkState) : Prop :=
  ∀ equity ∈ state.equities, 0 < column equity ∧ column equity < 10 ^ 16

instance (state : ShadowHighWatermarkState) : Decidable state.Storable :=
  inferInstanceAs (Decidable (∀ equity ∈ state.equities, _))

/-- The state that is read back from the row of a state, if the table can hold it. -/
def ShadowHighWatermarkState.stored (state : ShadowHighWatermarkState) :
    Option ShadowHighWatermarkState :=
  if h : state.Storable then
    some { state with
      sessionOpeningEquity := column state.sessionOpeningEquity
      referenceEquity := column state.referenceEquity
      peakEquity := column state.peakEquity
      currentEquity := column state.currentEquity
      opening_pos := (h _ (by simp [equities])).1
      reference_pos := (h _ (by simp [equities])).1
      current_pos := (h _ (by simp [equities])).1
      opening_le := quantizeHalfUp_mono state.opening_pos.le state.opening_le
      current_le := quantizeHalfUp_mono state.current_pos.le state.current_le }
  else none

abbrev Rows := Dict Key ShadowHighWatermarkState

inductive PersistError where
  /-- Only valid evaluations may be persisted. -/
  | notValid
  /-- The version of the evaluation is not that of an optimistic successor. -/
  | notSuccessor
  /-- `ConcurrentShadowHighWatermarkUpdate`. -/
  | concurrentUpdate
  /-- The database refuses the values of the statement. -/
  | notStorable

/-- The rows after a call that has not failed, the state that it returns, and
whether its statement has written that state. -/
structure Persisted where
  rows : Rows
  state : ShadowHighWatermarkState
  wrote : Bool

/-- The end of `persist_shadow_high_watermark` when nothing has been written. -/
def existingState (rows : Rows) (state : ShadowHighWatermarkState) :
    Except PersistError Persisted :=
  if rows.get? state.key = some state then .ok ⟨rows, state, false⟩
  else .error .concurrentUpdate

def persistShadowHighWatermark (rows : Rows) (e : ShadowHighWatermarkEvaluation) :
    Except PersistError Persisted :=
  match e.status, e.state with
  | .valid, some state =>
    match e.expectedStateVersion with
    | none =>
      match state.stored with
      | none => .error .notStorable
      | some row =>
        match rows.get? state.key with
        | none => .ok ⟨rows.set state.key row, row, true⟩
        | some _ => existingState rows state
    | some expected =>
      if state.stateVersion = expected then existingState rows state
      else if state.stateVersion = expected + 1 then
        match (rows.get? state.key).filter (·.stateVersion = expected) with
        | none => existingState rows state
        | some _ =>
          match state.stored with
          | none => .error .notStorable
          | some row => .ok ⟨rows.set state.key row, row, true⟩
      else .error .notSuccessor
  | _, _ => .error .notValid

section Stored

variable {state row : ShadowHighWatermarkState}

theorem column_of_hasPlaces {equity : Decimal} (h : HasPlaces 8 equity) :
    column equity = equity := h.quantizeHalfUp

theorem column_max {x y : Decimal} (hx : 0 ≤ x) (hy : 0 ≤ y) :
    column (max x y) = max (column x) (column y) := by
  rcases le_total x y with hle | hle
  · have hcolumn : column x ≤ column y := quantizeHalfUp_mono hx hle
    rw [max_eq_right hle, max_eq_right hcolumn]
  · have hcolumn : column y ≤ column x := quantizeHalfUp_mono hy hle
    rw [max_eq_left hle, max_eq_left hcolumn]

structure RowOf (state row : ShadowHighWatermarkState) : Prop where
  key : row.key = state.key
  opening : row.sessionOpeningEquity = column state.sessionOpeningEquity
  reference : row.referenceEquity = column state.referenceEquity
  peak : row.peakEquity = column state.peakEquity
  current : row.currentEquity = column state.currentEquity
  valuationAt : row.valuationAt = state.valuationAt
  source : row.valuationSource = state.valuationSource
  version : row.stateVersion = state.stateVersion

theorem rowOf_stored (h : state.stored = some row) : RowOf state row := by
  unfold ShadowHighWatermarkState.stored at h
  split at h
  · cases h
    exact ⟨rfl, rfl, rfl, rfl, rfl, rfl, rfl, rfl⟩
  · cases h

end Stored

/-- What a call of `persist_shadow_high_watermark` that has not failed has done:
it has found the state in its row, inserted the first row of the key, or replaced
the row of the version that was expected. -/
inductive Write (rows : Rows) (e : ShadowHighWatermarkEvaluation) : Persisted → Prop
  | found {state : ShadowHighWatermarkState} (hstate : e.state = some state)
      (hrow : rows.get? state.key = some state) : Write rows e ⟨rows, state, false⟩
  | inserted {state row : ShadowHighWatermarkState} (hstate : e.state = some state)
      (hexpected : e.expectedStateVersion = none) (hrow : rows.get? state.key = none)
      (hstored : state.stored = some row) :
      Write rows e ⟨rows.set state.key row, row, true⟩
  | replaced {state old row : ShadowHighWatermarkState} (hstate : e.state = some state)
      (hexpected : e.expectedStateVersion = some old.stateVersion)
      (hrow : rows.get? state.key = some old)
      (hversion : state.stateVersion = old.stateVersion + 1)
      (hstored : state.stored = some row) :
      Write rows e ⟨rows.set state.key row, row, true⟩

variable {rows : Rows} {e : ShadowHighWatermarkEvaluation} {persisted : Persisted}

theorem existingState_write {state : ShadowHighWatermarkState} (hstate : e.state = some state)
    (h : existingState rows state = .ok persisted) : Write rows e persisted := by
  unfold existingState at h
  split at h
  next hrow =>
    cases h
    exact .found hstate hrow
  · cases h

theorem persist_write (h : persistShadowHighWatermark rows e = .ok persisted) :
    e.status = .valid ∧ Write rows e persisted := by
  unfold persistShadowHighWatermark at h
  split at h
  next state hstatus hstate =>
    refine ⟨hstatus, ?_⟩
    split at h
    next hexpected =>
      split at h
      · cases h
      next row hstored =>
        split at h
        next hrow =>
          cases h
          exact .inserted hstate hexpected hrow hstored
        · exact existingState_write hstate h
    next expected hexpected =>
      split_ifs at h with hsame hnext
      · exact existingState_write hstate h
      · split at h
        · exact existingState_write hstate h
        next old hold =>
          obtain ⟨hrow, hversion⟩ := Option.filter_eq_some_iff.mp hold
          obtain rfl : old.stateVersion = expected := of_decide_eq_true hversion
          split at h
          · cases h
          next row hstored =>
            cases h
            exact .replaced hstate hexpected hrow hnext hstored
  · cases h

end KAssetTrader.Watermark
