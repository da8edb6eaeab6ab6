import Mathlib.Tactic

/-!
Sequences whose indices may be negative: an index below zero counts from the end. A slice is
cut to the sequence and always exists; an element outside of the sequence does not.
-/

namespace KAssetTrader.Sequences

variable {α : Type*}

def bound (length : ℕ) (i : ℤ) : ℕ := if i < 0 then (i + length).toNat else min i.toNat length

/-- `values[start:stop]`. -/
def slice (values : List α) (start stop : ℤ) : List α :=
  (values.take (bound values.length stop)).drop (bound values.length start)

/-- `values[start:]`. -/
def sliceFrom (values : List α) (start : ℤ) : List α :=
  values.drop (bound values.length start)

/-- `values[i]`. -/
def at? (values : List α) (i : ℤ) : Option α :=
  let place := if i < 0 then i + values.length else i
  if place < 0 then none else values[place.toNat]?

variable {values : List α} {start stop i : ℤ} {v : α}

theorem mem_of_mem_slice (h : v ∈ slice values start stop) : v ∈ values :=
  List.mem_of_mem_take (List.mem_of_mem_drop h)

theorem mem_of_mem_sliceFrom (h : v ∈ sliceFrom values start) : v ∈ values :=
  List.mem_of_mem_drop h

theorem bound_le (length : ℕ) (i : ℤ) : bound length i ≤ length := by
  unfold bound
  split_ifs <;> omega

theorem length_slice :
    (slice values start stop).length =
      bound values.length stop - bound values.length start := by
  have hstop := bound_le values.length stop
  unfold slice
  rw [List.length_drop, List.length_take]
  omega

theorem length_sliceFrom :
    (sliceFrom values start).length = values.length - bound values.length start :=
  List.length_drop

theorem bound_of_neg {length : ℕ} (h : i < 0) : bound length i = (i + length).toNat := if_pos h

theorem bound_of_nonneg {length : ℕ} (h : 0 ≤ i) : bound length i = min i.toNat length :=
  if_neg (not_lt.mpr h)

theorem slice_ne_nil_iff :
    slice values start stop ≠ [] ↔ bound values.length start < bound values.length stop := by
  rw [← List.length_pos_iff, length_slice]
  omega

theorem sliceFrom_ne_nil_iff :
    sliceFrom values start ≠ [] ↔ bound values.length start < values.length := by
  rw [← List.length_pos_iff, length_sliceFrom]
  omega

/-- An index from the end or from the start finds an element inside of the sequence. -/
theorem exists_at? (hlow : -values.length ≤ i) (hhigh : i < values.length) :
    ∃ v ∈ values, at? values i = some v := by
  have hplace : ¬ (if i < 0 then i + values.length else i) < 0 ∧
      (if i < 0 then i + (values.length : ℤ) else i).toNat < values.length := by
    split_ifs <;> omega
  refine ⟨values.get ⟨_, hplace.2⟩, List.get_mem _ _, ?_⟩
  unfold at?
  dsimp only
  rw [if_neg hplace.1]
  exact List.getElem?_eq_getElem hplace.2

end KAssetTrader.Sequences
