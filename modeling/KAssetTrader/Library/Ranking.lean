import Mathlib.Tactic

/-!
Rows in the order of a key: what a limited query fetches, and the first row that
passes a test. A row is among the first `n` when fewer than `n` rows have a smaller
key; the first row that passes has the least key of those that pass.
-/

namespace KAssetTrader.Ranking

variable {α κ : Type*} [LinearOrder κ] (key : α → κ)

def sortedBy (rows : List α) : List α := rows.mergeSort fun a b => decide (key a ≤ key b)

def rank (rows : List α) (a : α) : ℕ := rows.countP fun b => decide (key b < key a)

variable {key} {rows : List α} {a : α}

theorem mem_sortedBy : a ∈ sortedBy key rows ↔ a ∈ rows := List.mem_mergeSort

theorem sortedBy_pairwise : (sortedBy key rows).Pairwise fun a b => key a ≤ key b := by
  have hsorted : (sortedBy key rows).Pairwise fun a b => decide (key a ≤ key b) = true := by
    apply List.pairwise_mergeSort
    · intro a b c hab hbc
      exact decide_eq_true ((of_decide_eq_true hab).trans (of_decide_eq_true hbc))
    · intro a b
      rw [Bool.or_eq_true, decide_eq_true_iff, decide_eq_true_iff]
      exact le_total (key a) (key b)
  exact hsorted.imp of_decide_eq_true

theorem rank_sortedBy : rank key (sortedBy key rows) a = rank key rows a :=
  (List.mergeSort_perm rows _).countP_eq _

variable {n : ℕ} {test : α → Bool} {β : Type*} {f : α → Option β}

theorem mem_take_of_increasing (hrows : rows.Pairwise fun a b => key a < key b) :
    a ∈ rows.take n ↔ a ∈ rows ∧ rank key rows a < n := by
  induction rows generalizing n with
  | nil => simp
  | cons first rest ih =>
    obtain ⟨hfirst, hrest⟩ := List.pairwise_cons.mp hrows
    cases n with
    | zero => simp
    | succ n =>
      have hrank : rank key (first :: rest) a =
          rank key rest a + if decide (key first < key a) = true then 1 else 0 :=
        List.countP_cons
      rw [List.take_succ_cons, List.mem_cons, List.mem_cons, ih hrest, hrank]
      constructor
      · rintro (rfl | ⟨hmem, hlt⟩)
        · refine ⟨.inl rfl, ?_⟩
          have hzero : rank key rest a = 0 := by
            apply List.countP_eq_zero.mpr
            intro b hb hlt
            exact absurd (of_decide_eq_true hlt) (hfirst b hb).le.not_gt
          simp [hzero]
        · refine ⟨.inr hmem, ?_⟩
          rw [if_pos (decide_eq_true (hfirst a hmem))]
          exact Nat.succ_lt_succ hlt
      · rintro ⟨rfl | hmem, hlt⟩
        · exact .inl rfl
        · rw [if_pos (decide_eq_true (hfirst a hmem))] at hlt
          exact .inr ⟨hmem, Nat.lt_of_succ_lt_succ hlt⟩

theorem sortedBy_perm : (sortedBy key rows).Perm rows := List.mergeSort_perm rows _

theorem sortedBy_increasing (hkeys : (rows.map key).Nodup) :
    (sortedBy key rows).Pairwise fun a b => key a < key b := by
  have hdistinct : (sortedBy key rows).Pairwise fun a b => key a ≠ key b :=
    List.pairwise_map.mp ((sortedBy_perm.map key).nodup_iff.mpr hkeys)
  exact sortedBy_pairwise.imp₂ (fun _ _ hle hne => lt_of_le_of_ne hle hne) hdistinct

/-- The first `n` rows of a query are those that fewer than `n` rows come before. -/
theorem mem_take_sortedBy (hkeys : (rows.map key).Nodup) :
    a ∈ (sortedBy key rows).take n ↔ a ∈ rows ∧ rank key rows a < n := by
  rw [mem_take_of_increasing (sortedBy_increasing hkeys), mem_sortedBy, rank_sortedBy]

theorem eq_of_perm_of_increasing {xs ys : List α} (hperm : xs.Perm ys)
    (hxs : xs.Pairwise fun a b => key a < key b)
    (hys : ys.Pairwise fun a b => key a < key b) : xs = ys := by
  refine hperm.eq_of_pairwise ?_ hxs hys
  intro a b _ _ hab hba
  exact absurd (hab.trans hba) (lt_irrefl _)

theorem sortedBy_eq_of_perm {other : List α} (hkeys : (rows.map key).Nodup)
    (hperm : other.Perm rows) : sortedBy key other = sortedBy key rows := by
  have hother : (other.map key).Nodup := (hperm.map key).nodup_iff.mpr hkeys
  exact eq_of_perm_of_increasing ((sortedBy_perm.trans hperm).trans sortedBy_perm.symm)
    (sortedBy_increasing hother) (sortedBy_increasing hkeys)

theorem sortedBy_filter (hkeys : (rows.map key).Nodup) (p : α → Bool) :
    sortedBy key (rows.filter p) = (sortedBy key rows).filter p := by
  have hkept : ((rows.filter p).map key).Nodup := hkeys.sublist (List.filter_sublist.map key)
  exact eq_of_perm_of_increasing (sortedBy_perm.trans (sortedBy_perm.symm.filter p))
    (sortedBy_increasing hkept) ((sortedBy_increasing hkeys).filter p)

theorem sortedBy_append {later : List α} (hkeys : (rows.map key).Nodup)
    (hlater : (later.map key).Nodup) (hlt : ∀ a ∈ rows, ∀ b ∈ later, key a < key b) :
    sortedBy key (rows ++ later) = sortedBy key rows ++ sortedBy key later := by
  have hall : ((rows ++ later).map key).Nodup := by
    rw [List.map_append, List.nodup_append]
    refine ⟨hkeys, hlater, ?_⟩
    intro k hk k' hk' hsame
    obtain ⟨a, ha, rfl⟩ := List.mem_map.mp hk
    obtain ⟨b, hb, rfl⟩ := List.mem_map.mp hk'
    exact absurd hsame (hlt a ha b hb).ne
  refine eq_of_perm_of_increasing ?_ (sortedBy_increasing hall) ?_
  · exact sortedBy_perm.trans (sortedBy_perm.symm.append sortedBy_perm.symm)
  · rw [List.pairwise_append]
    refine ⟨sortedBy_increasing hkeys, sortedBy_increasing hlater, ?_⟩
    intro a ha b hb
    exact hlt a (mem_sortedBy.mp ha) b (mem_sortedBy.mp hb)

theorem le_of_find? (hfind : (sortedBy key rows).find? test = some a) {b : α} (hb : b ∈ rows)
    (htest : test b = true) : key a ≤ key b := by
  obtain ⟨_, before, after, hsplit, hbefore⟩ := List.find?_eq_some_iff_append.mp hfind
  have hsorted : (sortedBy key rows).Pairwise fun a b => key a ≤ key b := sortedBy_pairwise
  have hmem : b ∈ before ++ a :: after := by
    rw [← hsplit]
    exact mem_sortedBy.mpr hb
  rw [hsplit] at hsorted
  rcases List.mem_append.mp hmem with hearly | hlate
  · have hfails := hbefore b hearly
    simp [htest] at hfails
  · rcases List.mem_cons.mp hlate with rfl | hlater
    · exact le_rfl
    · exact (List.pairwise_cons.mp (List.pairwise_append.mp hsorted).2.1).1 b hlater

theorem pair_sublist_of_increasing (hrows : rows.Pairwise fun a b => key a < key b) {b : α}
    (ha : a ∈ rows) (hb : b ∈ rows) (hlt : key a < key b) : [a, b].Sublist rows := by
  obtain ⟨before, after, rfl⟩ := List.append_of_mem hb
  have hlater := (List.pairwise_cons.mp (List.pairwise_append.mp hrows).2.1).1
  rcases List.mem_append.mp ha with hearly | hlate
  · exact (List.singleton_sublist.mpr hearly).append
      (List.singleton_sublist.mpr List.mem_cons_self)
  · rcases List.mem_cons.mp hlate with rfl | hafter
    · exact absurd hlt (lt_irrefl _)
    · exact absurd (hlater a hafter) hlt.not_gt

/-- The sort is stable: no row that passes, with a key that is no greater, comes before the
row that is found. -/
theorem find?_sortedBy_first (hrows : rows.Nodup)
    (hfind : (sortedBy key rows).find? test = some a) {b : α} (htest : test b = true)
    (hle : key b ≤ key a) : ¬ [b, a].Sublist rows := by
  intro hpair
  have hsorted : [b, a].Sublist (sortedBy key rows) := by
    apply List.pair_sublist_mergeSort
    · intro a b c hab hbc
      exact decide_eq_true ((of_decide_eq_true hab).trans (of_decide_eq_true hbc))
    · intro a b
      rw [Bool.or_eq_true, decide_eq_true_iff, decide_eq_true_iff]
      exact le_total (key a) (key b)
    · exact decide_eq_true hle
    · exact hpair
  obtain ⟨-, before, after, hsplit, hbefore⟩ := List.find?_eq_some_iff_append.mp hfind
  have hnodup : (before ++ a :: after).Nodup := by
    rw [← hsplit]
    exact (sortedBy_perm.nodup_iff).mpr hrows
  rw [hsplit] at hsorted
  have hlate : a ∉ after := (List.nodup_cons.mp (List.nodup_append.mp hnodup).2.1).1
  obtain ⟨left, right, hjoin, hleft, hright⟩ := List.sublist_append_iff.mp hsorted
  have hb : b ∉ before := by
    intro hb
    simpa [htest] using hbefore b hb
  have hnil : left = [] := by
    cases left with
    | nil => rfl
    | cons first rest =>
      obtain rfl : b = first := (List.cons.inj hjoin).1
      exact absurd (hleft.subset List.mem_cons_self) hb
  subst hnil
  rw [List.nil_append] at hjoin
  subst hjoin
  have htail : [a].Sublist after := by
    cases hright with
    | cons _ h => exact (List.sublist_cons_self b [a]).trans h
    | cons_cons _ h => exact h
  exact hlate (List.singleton_sublist.mp htail)

/-- What is read off first is read off a row with the least key of those that give
something. -/
theorem findSome?_sortedBy {b : β} (hfind : (sortedBy key rows).findSome? f = some b) :
    ∃ a ∈ rows, f a = some b ∧ ∀ c ∈ rows, f c ≠ none → key a ≤ key c := by
  obtain ⟨before, a, after, hsplit, hfa, hbefore⟩ := List.findSome?_eq_some_iff.mp hfind
  have hsorted : (sortedBy key rows).Pairwise fun a b => key a ≤ key b := sortedBy_pairwise
  rw [hsplit] at hsorted
  have hmem : ∀ c, c ∈ rows ↔ c ∈ before ++ a :: after := by
    intro c
    rw [← hsplit]
    exact mem_sortedBy.symm
  refine ⟨a, (hmem a).mpr (List.mem_append_right _ List.mem_cons_self), hfa, ?_⟩
  intro c hc hgives
  rcases List.mem_append.mp ((hmem c).mp hc) with hearly | hlate
  · exact absurd (hbefore c hearly) hgives
  · rcases List.mem_cons.mp hlate with rfl | hlater
    · exact le_rfl
    · exact (List.pairwise_cons.mp (List.pairwise_append.mp hsorted).2.1).1 c hlater

theorem findSome?_sortedBy_eq_none :
    (sortedBy key rows).findSome? f = none ↔ ∀ a ∈ rows, f a = none := by
  simp [List.findSome?_eq_none_iff, mem_sortedBy]

theorem find?_sortedBy_eq_none :
    (sortedBy key rows).find? test = none ↔ ∀ a ∈ rows, test a = false := by
  simp [List.find?_eq_none, mem_sortedBy]

theorem mem_of_find?_sortedBy (hfind : (sortedBy key rows).find? test = some a) :
    a ∈ rows ∧ test a = true :=
  ⟨mem_sortedBy.mp (List.mem_of_find?_eq_some hfind), List.find?_some hfind⟩

/-- The rows in the order of a key, sorted by insertion, which a proof can evaluate. -/
def insertedBy (key : α → κ) (rows : List α) : List α :=
  rows.insertionSort fun a b => key a ≤ key b

theorem insertedBy_perm : (insertedBy key rows).Perm rows := List.perm_insertionSort _ rows

theorem mem_insertedBy : a ∈ insertedBy key rows ↔ a ∈ rows := insertedBy_perm.mem_iff

theorem insertedBy_pairwise : (insertedBy key rows).Pairwise fun a b => key a ≤ key b := by
  have htotal : Std.Total fun a b : α => key a ≤ key b := ⟨fun a b => le_total (key a) (key b)⟩
  have htrans : IsTrans α fun a b => key a ≤ key b := ⟨fun _ _ _ => le_trans⟩
  exact List.pairwise_insertionSort (fun a b => key a ≤ key b) rows

theorem insertedBy_increasing (hkeys : (rows.map key).Nodup) :
    (insertedBy key rows).Pairwise fun a b => key a < key b := by
  have hdistinct : (insertedBy key rows).Pairwise fun a b => key a ≠ key b :=
    List.pairwise_map.mp ((insertedBy_perm.map key).nodup_iff.mpr hkeys)
  exact insertedBy_pairwise.imp₂ (fun _ _ hle hne => lt_of_le_of_ne hle hne) hdistinct

theorem insertedBy_eq_of_perm {other : List α} (hkeys : (rows.map key).Nodup)
    (hperm : other.Perm rows) : insertedBy key other = insertedBy key rows := by
  have hother : (other.map key).Nodup := (hperm.map key).nodup_iff.mpr hkeys
  exact eq_of_perm_of_increasing ((insertedBy_perm.trans hperm).trans insertedBy_perm.symm)
    (insertedBy_increasing hother) (insertedBy_increasing hkeys)

end KAssetTrader.Ranking
