import Mathlib.Tactic

/-!
Dictionaries that iterate in the order of insertion. A new key goes to the end,
a value that is replaced keeps its place, and no key occurs twice. Totals over
the entries follow every change of one entry.
-/

namespace KAssetTrader

universe u v

structure Dict (κ : Type u) (ν : Type v) where
  entries : List (κ × ν)
  keys_nodup : (entries.map Prod.fst).Nodup

namespace Dict

variable {κ : Type u} {ν : Type v}

def empty : Dict κ ν := ⟨[], List.nodup_nil⟩

def keys (d : Dict κ ν) : List κ := d.entries.map Prod.fst

def values (d : Dict κ ν) : List ν := d.entries.map Prod.snd

def size (d : Dict κ ν) : ℕ := d.entries.length

def mapValues {μ : Type*} (d : Dict κ ν) (f : κ → ν → μ) : Dict κ μ where
  entries := d.entries.map fun e => (e.1, f e.1 e.2)
  keys_nodup := by simpa [Function.comp_def] using d.keys_nodup

variable [DecidableEq κ]

def get? (d : Dict κ ν) (k : κ) : Option ν := (d.entries.find? (·.1 = k)).map Prod.snd

def filter (d : Dict κ ν) (p : κ → ν → Bool) : Dict κ ν where
  entries := d.entries.filter fun e => p e.1 e.2
  keys_nodup := (List.filter_sublist.map Prod.fst).nodup d.keys_nodup

def erase (d : Dict κ ν) (k : κ) : Dict κ ν where
  entries := d.entries.filter (·.1 ≠ k)
  keys_nodup := (List.filter_sublist.map Prod.fst).nodup d.keys_nodup

def modify (d : Dict κ ν) (k : κ) (f : ν → ν) : Dict κ ν :=
  d.mapValues fun key value => if key = k then f value else value

def set (d : Dict κ ν) (k : κ) (v : ν) : Dict κ ν :=
  if hk : k ∈ d.keys then d.modify k fun _ => v
  else
    { entries := d.entries ++ [(k, v)]
      keys_nodup := by
        rw [List.map_append, List.map_singleton]
        exact List.nodup_append_comm.mp (List.nodup_cons.mpr ⟨hk, d.keys_nodup⟩) }

section Lookup

variable (d : Dict κ ν) {k k' : κ} {v : ν}

@[simp] theorem get?_empty : (empty : Dict κ ν).get? k = none := rfl

theorem get?_eq_some : d.get? k = some v ↔ (k, v) ∈ d.entries := by
  constructor
  · intro h
    obtain ⟨⟨key, value⟩, hfind, rfl⟩ := Option.map_eq_some_iff.mp h
    obtain rfl : key = k := by simpa using List.find?_some hfind
    exact List.mem_of_find?_eq_some hfind
  · intro h
    cases hfind : d.entries.find? (·.1 = k) with
    | none => simpa using List.find?_eq_none.mp hfind _ h
    | some entry =>
      obtain ⟨key, value⟩ := entry
      obtain rfl : key = k := by simpa using List.find?_some hfind
      have hmem := List.mem_of_find?_eq_some hfind
      have hsame := List.inj_on_of_nodup_map d.keys_nodup hmem h rfl
      simp [get?, hfind, (Prod.mk.inj hsame).2]

theorem get?_eq_none : d.get? k = none ↔ k ∉ d.keys := by
  rw [Option.eq_none_iff_forall_ne_some]
  constructor
  · intro h hk
    obtain ⟨⟨key, value⟩, hmem, rfl⟩ := List.mem_map.mp hk
    exact h value (d.get?_eq_some.mpr hmem)
  · intro h v hv
    exact h (List.mem_map.mpr ⟨_, d.get?_eq_some.mp hv, rfl⟩)

theorem isSome_get?_iff : (d.get? k).isSome = true ↔ k ∈ d.keys := by
  rw [Option.isSome_iff_ne_none, ne_eq, d.get?_eq_none, not_not]

theorem get?_congr {d' : Dict κ ν} (h : ∀ v, (k, v) ∈ d.entries ↔ (k, v) ∈ d'.entries) :
    d.get? k = d'.get? k := by
  ext v
  rw [d.get?_eq_some, d'.get?_eq_some, h]

theorem get?_erase : (d.erase k).get? k' = if k' = k then none else d.get? k' := by
  split
  next h =>
    subst h
    rw [get?_eq_none]
    simp [erase, keys]
  next h => exact get?_congr _ fun v => by simp [erase, h]

theorem get?_filter_eq_some {p : κ → ν → Bool} :
    (d.filter p).get? k = some v ↔ d.get? k = some v ∧ p k v = true := by
  rw [get?_eq_some, get?_eq_some, filter, List.mem_filter]

theorem get?_mapValues {μ : Type*} (f : κ → ν → μ) :
    (d.mapValues f).get? k = (d.get? k).map (f k) := by
  ext w
  rw [get?_eq_some, Option.map_eq_some_iff]
  simp only [d.get?_eq_some, mapValues, List.mem_map, Prod.mk.injEq, Prod.exists]
  constructor
  · rintro ⟨key, value, hmem, rfl, rfl⟩
    exact ⟨value, hmem, rfl⟩
  · rintro ⟨value, hmem, rfl⟩
    exact ⟨k, value, hmem, rfl, rfl⟩

theorem get?_modify (f : ν → ν) :
    (d.modify k f).get? k' = if k' = k then (d.get? k').map f else d.get? k' := by
  rw [modify, get?_mapValues]
  split
  · rfl
  · simp

theorem get?_set : (d.set k v).get? k' = if k' = k then some v else d.get? k' := by
  by_cases hk : k ∈ d.keys
  · rw [set, dif_pos hk, get?_modify]
    split
    next h =>
      subst h
      obtain ⟨w, hw⟩ := Option.ne_none_iff_exists'.mp (mt d.get?_eq_none.mp (not_not.mpr hk))
      rw [hw]
      rfl
    · rfl
  · rw [set, dif_neg hk]
    split
    next h =>
      subst h
      rw [get?_eq_some]
      simp
    next h => exact get?_congr _ fun w => by simp [h]

variable {d}

theorem of_get?_erase {k' : κ} (h : (d.erase k').get? k = some v) : k ≠ k' ∧ d.get? k = some v := by
  rw [get?_erase] at h
  split at h
  · cases h
  next hne => exact ⟨hne, h⟩

theorem of_get?_set {k' : κ} {v' : ν} (h : (d.set k' v').get? k = some v) :
    (k = k' ∧ v = v') ∨ (k ≠ k' ∧ d.get? k = some v) := by
  rw [get?_set] at h
  split at h
  next heq => exact .inl ⟨heq, (Option.some.inj h).symm⟩
  next hne => exact .inr ⟨hne, h⟩

theorem of_get?_modify {k' : κ} {f : ν → ν} (h : (d.modify k' f).get? k = some v) :
    ∃ w, d.get? k = some w ∧ ((k = k' ∧ v = f w) ∨ (k ≠ k' ∧ v = w)) := by
  rw [get?_modify] at h
  split at h
  next heq =>
    obtain ⟨w, hw, rfl⟩ := Option.map_eq_some_iff.mp h
    exact ⟨w, hw, .inl ⟨heq, rfl⟩⟩
  next hne => exact ⟨v, h, .inr ⟨hne, rfl⟩⟩

section Size

variable (d)

omit [DecidableEq κ] in
theorem size_mapValues {μ : Type*} (f : κ → ν → μ) : (d.mapValues f).size = d.size := by
  simp [size, mapValues]

theorem size_modify (f : ν → ν) : (d.modify k f).size = d.size := d.size_mapValues _

theorem size_erase_le : (d.erase k).size ≤ d.size := List.length_filter_le _ _

theorem size_set (h : d.get? k = none) : (d.set k v).size = d.size + 1 := by
  rw [set, dif_neg (d.get?_eq_none.mp h)]
  simp [size]

end Size

theorem map_filter_entries :
    (d.entries.filter (·.1 = k)).map Prod.snd = (d.get? k).toList := by
  have hfind : ∀ entries : List (κ × ν), (entries.map Prod.fst).Nodup →
      (entries.filter (·.1 = k)).map Prod.snd =
        ((entries.find? (·.1 = k)).map Prod.snd).toList := by
    intro entries hnodup
    induction entries with
    | nil => rfl
    | cons entry rest ih =>
      rw [List.map_cons, List.nodup_cons] at hnodup
      by_cases hkey : entry.1 = k
      · have hrest : rest.filter (·.1 = k) = [] := by
          refine List.filter_eq_nil_iff.mpr fun e he => ?_
          have hne : e.1 ≠ k := by
            intro heq
            exact hnodup.1 (List.mem_map.mpr ⟨e, he, heq.trans hkey.symm⟩)
          simpa using hne
        simp [hkey, hrest]
      · simp only [List.filter_cons, List.find?_cons, hkey, decide_false, Bool.false_eq_true,
          if_false]
        exact ih hnodup.2
  exact hfind d.entries d.keys_nodup

theorem nodup_filter_values (key : ν → κ) (h : ∀ k v, d.get? k = some v → key v = k)
    (p : κ × ν → Bool) : (((d.entries.filter p).map Prod.snd).map key).Nodup := by
  have hkeys : ((d.entries.filter p).map Prod.snd).map key = (d.entries.filter p).map Prod.fst := by
    rw [List.map_map]
    refine List.map_congr_left fun e he => ?_
    exact h e.1 e.2 (d.get?_eq_some.mpr (List.mem_filter.mp he).1)
  rw [hkeys]
  exact (List.filter_sublist.map Prod.fst).nodup d.keys_nodup

end Lookup

variable {M : Type*} [AddCommMonoid M] (f : κ → ν → M) (d : Dict κ ν) {k : κ} {v : ν}

def total (d : Dict κ ν) (f : κ → ν → M) : M := (d.entries.map fun e => f e.1 e.2).sum

omit [DecidableEq κ] in
@[simp] theorem total_empty : (empty : Dict κ ν).total f = 0 := rfl

theorem total_erase (h : d.get? k = some v) : d.total f = f k v + (d.erase k).total f := by
  have hsum : ∀ entries : List (κ × ν), (entries.map Prod.fst).Nodup → (k, v) ∈ entries →
      (entries.map fun e => f e.1 e.2).sum =
        f k v + ((entries.filter (·.1 ≠ k)).map fun e => f e.1 e.2).sum := by
    intro entries hnodup hmem
    induction entries with
    | nil => simp at hmem
    | cons entry rest ih =>
      rw [List.map_cons, List.nodup_cons] at hnodup
      rcases List.mem_cons.mp hmem with rfl | hrest
      · have hrest : rest.filter (·.1 ≠ k) = rest := by
          refine List.filter_eq_self.mpr fun e he => ?_
          have hne : e.1 ≠ k := fun heq =>
            hnodup.1 (List.mem_map.mpr ⟨e, he, heq⟩)
          exact decide_eq_true hne
        rw [List.map_cons, List.sum_cons, List.filter_cons_of_neg (by simp), hrest]
      · have hne : entry.1 ≠ k := fun heq =>
          hnodup.1 (List.mem_map.mpr ⟨_, hrest, heq.symm⟩)
        simp only [List.map_cons, List.sum_cons, ih hnodup.2 hrest,
          List.filter_cons_of_pos (p := fun e : κ × ν => e.1 ≠ k) (decide_eq_true hne)]
        exact add_left_comm _ _ _
  exact hsum d.entries d.keys_nodup (d.get?_eq_some.mp h)

theorem total_set (h : d.get? k = none) : (d.set k v).total f = d.total f + f k v := by
  rw [set, dif_neg (d.get?_eq_none.mp h)]
  simp [total]

theorem erase_modify (g : ν → ν) : (d.modify k g).erase k = d.erase k := by
  have hentries : ((d.modify k g).erase k).entries = (d.erase k).entries := by
    simp only [erase, modify, mapValues, List.filter_map]
    rw [List.map_congr_left (g := id)]
    · simp [Function.comp_def]
    · intro e he
      have hne : e.1 ≠ k := by simpa using (List.mem_filter.mp he).2
      simp [hne]
  cases h : (d.modify k g).erase k
  cases h' : d.erase k
  simp only [h, h'] at hentries
  simp [hentries]

theorem total_modify (g : ν → ν) (h : d.get? k = some v) :
    d.total f = f k v + (d.erase k).total f ∧
      (d.modify k g).total f = f k (g v) + (d.erase k).total f := by
  refine ⟨d.total_erase f h, ?_⟩
  have hvalue : (d.modify k g).get? k = some (g v) := by
    rw [get?_modify, if_pos rfl, h]
    rfl
  rw [(d.modify k g).total_erase f hvalue, erase_modify]

theorem total_replace (w : ν) (h : d.get? k = some v) :
    d.total f = f k v + (d.erase k).total f ∧
      (d.set k w).total f = f k w + (d.erase k).total f := by
  have hk : k ∈ d.keys := by
    by_contra hk
    rw [d.get?_eq_none.mpr hk] at h
    cases h
  rw [set, dif_pos hk]
  exact d.total_modify f (fun _ => w) h

omit [DecidableEq κ] in
theorem total_mapValues {g : κ → ν → ν} (h : ∀ key value, f key (g key value) = f key value) :
    (d.mapValues g).total f = d.total f := by
  simp only [total, mapValues, List.map_map]
  congr 1
  exact List.map_congr_left fun e _ => h e.1 e.2

theorem total_modify_of_eq {g : ν → ν} (h : ∀ key value, f key (g value) = f key value) :
    (d.modify k g).total f = d.total f := by
  refine d.total_mapValues f fun key value => ?_
  split
  · exact h _ _
  · rfl

variable {g : κ → ν → M}

theorem total_congr (h : ∀ k v, d.get? k = some v → f k v = g k v) :
    d.total f = d.total g := by
  unfold total
  congr 1
  exact List.map_congr_left fun e he => h e.1 e.2 (d.get?_eq_some.mpr he)

theorem total_le_total [PartialOrder M] [IsOrderedAddMonoid M]
    (h : ∀ k v, d.get? k = some v → f k v ≤ g k v) : d.total f ≤ d.total g := by
  apply List.sum_le_sum
  intro e he
  exact h e.1 e.2 (d.get?_eq_some.mpr he)

/-- A value is replaced, and the quantity changes for its key only. -/
theorem total_set_add (w : ν) (h : d.get? k = some v) (hother : ∀ k' v', k' ≠ k → g k' v' = f k' v')
    :
    (d.set k w).total g + f k v = d.total f + g k w := by
  have hrest : (d.erase k).total g = (d.erase k).total f := by
    apply total_congr
    intro k' v' hget
    exact hother k' v' (of_get?_erase hget).1
  rw [(d.total_replace g w h).2, (d.total_replace f w h).1, hrest]
  rw [add_comm (g k w), add_right_comm, add_comm _ (f k v)]

end Dict

end KAssetTrader
