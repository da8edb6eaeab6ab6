import Mathlib.Data.List.Rotate
import Mathlib.Data.List.Sort
import Mathlib.Tactic

/-!
Lists that are grouped by a key and sorted again. The groups are those of the
distinct keys in the order of their first appearance, and a stable sort leaves
the entries of one group as they were when they are in order already. Groups in
turn give one entry each in every round.
-/

namespace KAssetTrader.Groups

variable {α β κ : Type*}

section Distinct

variable [DecidableEq α]

theorem nodup_eraseDups (values : List α) : values.eraseDups.Nodup := by
  match values with
  | [] => exact List.nodup_nil
  | first :: rest =>
    rw [List.eraseDups_cons, List.nodup_cons]
    refine ⟨?_, nodup_eraseDups _⟩
    intro hmem
    have hfirst := List.mem_filter.mp (List.mem_eraseDups.mp hmem)
    simp at hfirst
  termination_by values.length
  decreasing_by
    simp only [List.length_cons]
    exact Nat.lt_succ_of_le (List.length_filter_le _ _)

theorem eraseDups_sublist (values : List α) : values.eraseDups.Sublist values := by
  match values with
  | [] => simp
  | first :: rest =>
    rw [List.eraseDups_cons]
    exact ((eraseDups_sublist _).trans List.filter_sublist).cons_cons first
  termination_by values.length
  decreasing_by
    simp only [List.length_cons]
    exact Nat.lt_succ_of_le (List.length_filter_le _ _)

theorem eraseDups_of_nodup {values : List α} (h : values.Nodup) : values.eraseDups = values := by
  induction values with
  | nil => rfl
  | cons first rest ih =>
    obtain ⟨hfirst, hrest⟩ := List.nodup_cons.mp h
    have hall : rest.filter (fun value => !value == first) = rest := by
      apply List.filter_eq_self.mpr
      intro value hvalue
      have hne : value ≠ first := fun heq => hfirst (heq ▸ hvalue)
      simpa using hne
    rw [List.eraseDups_cons, hall, ih hrest]

end Distinct

theorem filter_flatMap_group [DecidableEq κ] {key : β → κ} {results : κ → List β} {keys : List κ}
    (hkey : ∀ k, ∀ b ∈ results k, key b = k) (hkeys : keys.Nodup) {k : κ}
    (hmissing : k ∉ keys → results k = []) :
    (keys.flatMap results).filter (fun b => decide (key b = k)) = results k := by
  induction keys with
  | nil => simpa using (hmissing List.not_mem_nil).symm
  | cons first rest ih =>
    obtain ⟨hfirst, hrest⟩ := List.nodup_cons.mp hkeys
    rw [List.flatMap_cons, List.filter_append]
    by_cases hk : first = k
    · subst hk
      have hown : (results first).filter (fun b => decide (key b = first)) = results first := by
        apply List.filter_eq_self.mpr
        intro b hb
        simpa using hkey first b hb
      have hothers : (rest.flatMap results).filter (fun b => decide (key b = first)) = [] := by
        apply List.filter_eq_nil_iff.mpr
        intro b hb
        obtain ⟨other, hother, hb⟩ := List.mem_flatMap.mp hb
        have hne : key b ≠ first := by
          rw [hkey other b hb]
          exact fun heq => hfirst (heq ▸ hother)
        simpa using hne
      rw [hown, hothers, List.append_nil]
    · have hnone : (results first).filter (fun b => decide (key b = k)) = [] := by
        apply List.filter_eq_nil_iff.mpr
        intro b hb
        rw [hkey first b hb]
        simpa using hk
      rw [hnone, List.nil_append]
      apply ih hrest
      intro hmem
      apply hmissing
      rw [List.mem_cons, not_or]
      exact ⟨fun heq => hk heq.symm, hmem⟩

/-- A stable sort keeps the entries of a group that are in order already. -/
theorem filter_insertionSort {r : α → α → Prop} [DecidableRel r] {p : α → Bool} {values : List α}
    (h : (values.filter p).Pairwise r) : (values.insertionSort r).filter p = values.filter p := by
  have hkept : (values.filter p).Sublist ((values.insertionSort r).filter p) := by
    have hsub := (List.sublist_insertionSort h List.filter_sublist).filter p
    rwa [List.filter_filter, show (fun a => p a && p a) = p from funext fun a => by simp] at hsub
  have hlength : (values.filter p).length = ((values.insertionSort r).filter p).length :=
    ((List.perm_insertionSort r values).filter p).length_eq.symm
  exact (hkept.eq_of_length hlength).symm

section Turns

/-- The groups in turn, one entry of each group in every round. -/
def inTurn (groups : List (List α)) : List α :=
  (List.range ((groups.map List.length).foldr max 0)).flatMap fun round =>
    groups.filterMap (·[round]?)

theorem length_le_foldr_max {groups : List (List α)} {group : List α} (h : group ∈ groups) :
    group.length ≤ (groups.map List.length).foldr max 0 := by
  induction groups with
  | nil => cases h
  | cons first rest ih =>
    rcases List.mem_cons.mp h with rfl | h
    · exact le_max_left _ _
    · exact (ih h).trans (le_max_right _ _)

/-- Of the groups that are among the first `n`, the first entries come in the first `n`
places. -/
theorem mem_take_inTurn {groups : List (List α)} {group : List α} {first : α} {n : ℕ}
    (h : group ∈ groups.take n) (hfirst : group.head? = some first) :
    first ∈ (inTurn groups).take n := by
  have hlength := length_le_foldr_max (List.mem_of_mem_take h)
  obtain ⟨m, hm⟩ : ∃ m, (groups.map List.length).foldr max 0 = m + 1 :=
    Nat.exists_eq_add_one_of_ne_zero fun hzero => by
      rw [hzero, Nat.le_zero, List.length_eq_zero_iff] at hlength
      simp [hlength] at hfirst
  have hround : first ∈ (groups.take n).filterMap (·[0]?) :=
    List.mem_filterMap.mpr ⟨group, h, by rw [← List.head?_eq_getElem?, hfirst]⟩
  have hshort : ((groups.take n).filterMap (·[0]?)).length ≤ n :=
    (List.length_filterMap_le _ _).trans (List.length_take_le _ _)
  rw [inTurn, hm, List.range_succ_eq_map, List.flatMap_cons, ← List.take_append_drop n groups,
    List.filterMap_append, List.append_assoc, List.take_append, List.take_of_length_le hshort]
  exact List.mem_append_left _ hround

variable [DecidableEq α]

theorem idxOf_rotate {ring : List α} {a : α} {n : ℕ} (h : a ∈ ring) (hn : n ≤ ring.length)
    (hnot : a ∉ ring.take n) : (ring.rotate n).idxOf a + n = ring.idxOf a := by
  have hdrop : a ∈ ring.drop n := by
    have := List.take_append_drop n ring ▸ h
    exact (List.mem_append.mp this).resolve_left hnot
  rw [List.rotate_eq_drop_append_take hn, List.idxOf_append_of_mem hdrop]
  conv_rhs => rw [← List.take_append_drop n ring, List.idxOf_append_of_notMem hnot]
  rw [List.length_take, min_eq_left hn, add_comm]

end Turns

end KAssetTrader.Groups
