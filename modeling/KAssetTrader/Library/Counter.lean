import KAssetTrader.Library.Dict
import KAssetTrader.Library.Ranking

/-!
Dictionaries of counts, dictionaries in the order of their keys, and running maxima. What is
counted adds up to what was there before and the items; the counts depend on the items and
not on their order, and in the order of the keys neither does the dictionary. Of the rows of
a group the one with the largest key is kept, which the order of the rows does not change
where no two of a group have one key.
-/

namespace KAssetTrader.Dict

section Counters

universe u v

variable {κ : Type u}

section Counts

variable [DecidableEq κ]

/-- The count of a key, increased; a key without a count starts at zero. -/
def increase (d : Dict κ ℕ) (k : κ) (n : ℕ) : Dict κ ℕ := d.set k ((d.get? k).getD 0 + n)

def tally (d : Dict κ ℕ) (items : List κ) : Dict κ ℕ := items.foldl (fun d k => d.increase k 1) d

def counted (d : Dict κ ℕ) : ℕ := d.total fun _ n => n

variable {d : Dict κ ℕ} {k k' : κ} {n : ℕ} {items other : List κ}

theorem get?_increase :
    (d.increase k n).get? k' = if k' = k then some ((d.get? k).getD 0 + n) else d.get? k' :=
  d.get?_set

theorem counted_increase : (d.increase k n).counted = d.counted + n := by
  unfold counted increase
  cases hget : d.get? k with
  | none =>
    rw [d.total_set _ hget]
    simp
  | some old =>
    obtain ⟨hbefore, hafter⟩ := d.total_replace (fun _ n => n) (old + n) hget
    rw [Option.getD_some, hafter, hbefore]
    omega

theorem counted_tally : (d.tally items).counted = d.counted + items.length := by
  induction items generalizing d with
  | nil => rfl
  | cons k rest ih =>
    have hrest : ((d.increase k 1).tally rest).counted = d.counted + 1 + rest.length := by
      rw [ih, counted_increase]
    rw [List.length_cons]
    exact hrest.trans (by omega)

theorem get?_tally : (d.tally items).get? k =
    if items.count k = 0 then d.get? k else some ((d.get? k).getD 0 + items.count k) := by
  induction items generalizing d with
  | nil => rfl
  | cons first rest ih =>
    have hrest : (d.tally (first :: rest)).get? k = ((d.increase first 1).tally rest).get? k := rfl
    rw [hrest, ih, get?_increase, List.count_cons]
    by_cases hk : k = first
    · subst hk
      by_cases hzero : rest.count k = 0
      · simp [hzero]
      · simp only [hzero, if_true, if_false, beq_self_eq_true, Option.getD_some]
        rw [if_neg (Nat.succ_ne_zero _)]
        congr 1
        omega
    · have hbeq : (first == k) = false := by simpa using fun h => hk h.symm
      simp [hk, hbeq]

theorem get?_tally_perm (hperm : items.Perm other) :
    (d.tally items).get? = (d.tally other).get? := by
  funext k
  rw [get?_tally, get?_tally, hperm.count_eq]

theorem get?_tally_congr {e : Dict κ ℕ} (h : d.get? = e.get?) :
    (d.tally items).get? = (e.tally items).get? := by
  funext k
  rw [get?_tally, get?_tally, h]

theorem get?_increase_congr {e : Dict κ ℕ} (h : d.get? = e.get?) :
    (d.increase k n).get? = (e.increase k n).get? := by
  funext k'
  rw [get?_increase, get?_increase, h]

end Counts

section Ordered

variable {ν : Type v} {ι : Type*} [LinearOrder ι] {key : κ → ι} {d e : Dict κ ν}

def ordered (key : κ → ι) (d : Dict κ ν) : Dict κ ν where
  entries := Ranking.insertedBy (fun entry => key entry.1) d.entries
  keys_nodup := (Ranking.insertedBy_perm.map Prod.fst).nodup_iff.mpr d.keys_nodup

theorem entries_perm_of_get? [DecidableEq κ] (h : d.get? = e.get?) : d.entries.Perm e.entries := by
  refine (List.perm_ext_iff_of_nodup (.of_map Prod.fst d.keys_nodup)
    (.of_map Prod.fst e.keys_nodup)).mpr ?_
  rintro ⟨k, v⟩
  rw [← d.get?_eq_some, ← e.get?_eq_some, h]

theorem ordered_congr [DecidableEq κ] (hkey : Function.Injective key) (h : d.get? = e.get?) :
    d.ordered key = e.ordered key := by
  have hnodup : (e.entries.map fun entry => key entry.1).Nodup := by
    have hkeys := e.keys_nodup.map hkey
    rwa [List.map_map] at hkeys
  simp only [ordered, Ranking.insertedBy_eq_of_perm hnodup (entries_perm_of_get? h)]

theorem counted_ordered {d : Dict κ ℕ} : (d.ordered key).counted = d.counted :=
  (Ranking.insertedBy_perm.map fun entry : κ × ℕ => entry.2).sum_eq

end Ordered

end Counters

universe u v

variable {α : Type u} {γ : Type v} {ι : Type*} [DecidableEq γ] [LinearOrder ι] (group : α → γ)
  (key : α → ι)

/-- One row: it is kept when its group has none, or one with a smaller key. -/
def keepLargest (d : Dict γ α) (row : α) : Dict γ α :=
  match d.get? (group row) with
  | none => d.set (group row) row
  | some current => if key current < key row then d.set (group row) row else d

def largest (rows : List α) : Dict γ α := rows.foldl (keepLargest group key) Dict.empty

variable {group key} {rows other : List α} {row : α} {g : γ}

variable {d : Dict γ α}

theorem get?_keepLargest {kept : α} (h : (keepLargest group key d row).get? g = some kept) :
    (kept = row ∧ g = group row ∨ d.get? g = some kept) ∧
      (g = group row → key row ≤ key kept ∧
        ∀ current, d.get? g = some current → key current ≤ key kept) := by
  unfold keepLargest at h
  split at h
  next hnone =>
    rcases of_get?_set h with ⟨rfl, rfl⟩ | ⟨hne, hget⟩
    · refine ⟨.inl ⟨rfl, rfl⟩, fun _ => ⟨le_rfl, fun current hcurrent => ?_⟩⟩
      rw [hnone] at hcurrent
      cases hcurrent
    · exact ⟨.inr hget, fun heq => absurd heq hne⟩
  next current hcurrent =>
    split at h
    next hlt =>
      rcases of_get?_set h with ⟨rfl, rfl⟩ | ⟨hne, hget⟩
      · refine ⟨.inl ⟨rfl, rfl⟩, fun _ => ⟨le_rfl, fun other hother => ?_⟩⟩
        cases hcurrent.symm.trans hother
        exact hlt.le
      · exact ⟨.inr hget, fun heq => absurd heq hne⟩
    next hge =>
      refine ⟨.inr h, fun heq => ?_⟩
      subst heq
      cases hcurrent.symm.trans h
      refine ⟨not_lt.mp hge, fun other hother => ?_⟩
      cases hcurrent.symm.trans hother
      exact le_rfl

theorem get?_keepLargest_isSome :
    ((keepLargest group key d row).get? g).isSome ↔ g = group row ∨ (d.get? g).isSome := by
  unfold keepLargest
  split
  next hnone =>
    rw [get?_set]
    split_ifs with heq <;> simp [heq]
  next current hcurrent =>
    split_ifs
    · rw [get?_set]
      split_ifs with heq <;> simp [heq]
    · constructor
      · exact .inr
      · rintro (rfl | hsome)
        · rw [hcurrent]
          rfl
        · exact hsome

private theorem foldl_keepLargest {kept : α}
    (h : (rows.foldl (keepLargest group key) d).get? g = some kept) :
    (kept ∈ rows ∧ group kept = g ∨ d.get? g = some kept) ∧
      (∀ row ∈ rows, group row = g → key row ≤ key kept) ∧
        ∀ current, d.get? g = some current → key current ≤ key kept := by
  induction rows generalizing d with
  | nil =>
    refine ⟨.inr h, nofun, fun current hcurrent => ?_⟩
    cases hcurrent.symm.trans h
    exact le_rfl
  | cons first rest ih =>
    obtain ⟨hfrom, hrows, hbefore⟩ := ih h
    have hkept : ∀ current, (keepLargest group key d first).get? g = some current →
        key current ≤ key kept := hbefore
    have hfirst : group first = g → key first ≤ key kept := by
      rintro rfl
      have hsome : ((keepLargest group key d first).get? (group first)).isSome :=
        get?_keepLargest_isSome.mpr (.inl rfl)
      obtain ⟨now, hnow⟩ := Option.isSome_iff_exists.mp hsome
      exact ((get?_keepLargest hnow).2 rfl).1.trans (hkept now hnow)
    refine ⟨?_, ?_, ?_⟩
    · rcases hfrom with ⟨hmem, hgroup⟩ | hget
      · exact .inl ⟨List.mem_cons_of_mem _ hmem, hgroup⟩
      · rcases (get?_keepLargest hget).1 with ⟨rfl, rfl⟩ | hold
        · exact .inl ⟨List.mem_cons_self, rfl⟩
        · exact .inr hold
    · intro row hrow hgroup
      rcases List.mem_cons.mp hrow with rfl | hrow
      · exact hfirst hgroup
      · exact hrows row hrow hgroup
    · intro current hcurrent
      have hsome : ((keepLargest group key d first).get? g).isSome :=
        get?_keepLargest_isSome.mpr (.inr (Option.isSome_of_eq_some hcurrent))
      obtain ⟨now, hnow⟩ := Option.isSome_iff_exists.mp hsome
      by_cases hgroup : g = group first
      · exact (((get?_keepLargest hnow).2 hgroup).2 current hcurrent).trans (hkept now hnow)
      · rcases (get?_keepLargest hnow).1 with ⟨-, heq⟩ | hold
        · exact absurd heq hgroup
        · cases hcurrent.symm.trans hold
          exact hkept current hnow

private theorem isSome_foldl_keepLargest :
    ((rows.foldl (keepLargest group key) d).get? g).isSome ↔
      (∃ row ∈ rows, group row = g) ∨ (d.get? g).isSome := by
  induction rows generalizing d with
  | nil => simp
  | cons first rest ih =>
    rw [List.foldl_cons, ih, get?_keepLargest_isSome, List.exists_mem_cons_iff]
    constructor
    · rintro (hrest | rfl | hd)
      · exact .inl (.inr hrest)
      · exact .inl (.inl rfl)
      · exact .inr hd
    · rintro ((hfirst | hrest) | hd)
      · exact .inr (.inl hfirst.symm)
      · exact .inl hrest
      · exact .inr (.inr hd)

theorem get?_largest (hkeys : (rows.map fun row => (group row, key row)).Nodup) :
    (largest group key rows).get? g = some row ↔
      row ∈ rows ∧ group row = g ∧ ∀ other ∈ rows, group other = g → key other ≤ key row := by
  constructor
  · intro h
    obtain ⟨hfrom, hrows, -⟩ := foldl_keepLargest h
    rcases hfrom with ⟨hmem, hgroup⟩ | hempty
    · exact ⟨hmem, hgroup, hrows⟩
    · cases hempty
  · rintro ⟨hmem, hgroup, hlargest⟩
    have hsome : ((largest group key rows).get? g).isSome :=
      isSome_foldl_keepLargest.mpr (.inl ⟨row, hmem, hgroup⟩)
    obtain ⟨kept, hkept⟩ := Option.isSome_iff_exists.mp hsome
    obtain ⟨hfrom, hrows, -⟩ := foldl_keepLargest hkept
    rcases hfrom with ⟨hmemKept, hgroupKept⟩ | hempty
    · have hkey : key kept = key row :=
        le_antisymm (hlargest kept hmemKept hgroupKept) (hrows row hmem hgroup)
      have hsame : kept = row := List.inj_on_of_nodup_map hkeys hmemKept hmem
        (Prod.ext (hgroupKept.trans hgroup.symm) hkey)
      rw [← hsame]
      exact hkept
    · cases hempty

theorem get?_largest_perm (hkeys : (rows.map fun row => (group row, key row)).Nodup)
    (hperm : other.Perm rows) :
    (largest group key other).get? = (largest group key rows).get? := by
  have hother : (other.map fun row => (group row, key row)).Nodup :=
    (hperm.map _).nodup_iff.mpr hkeys
  funext g
  ext row
  rw [get?_largest hother, get?_largest hkeys, hperm.mem_iff]
  simp only [hperm.mem_iff]

end KAssetTrader.Dict
