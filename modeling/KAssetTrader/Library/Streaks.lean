import KAssetTrader.Library.Groups
import KAssetTrader.Library.Ranking
import Mathlib.Data.List.DropRight

/-!
Streaks at the end of a list, and the entries of a list that come first among
those in conflict with them. The streak of a property is the longest suffix that
has it throughout, `List.rtakeWhile`. Keeping first entries drops what conflicts
with an entry kept before; where the conflicts of an entry start with itself, repeated entries make
no difference, and neither does the order of entries that are sorted by distinct
keys.
-/

namespace KAssetTrader.Streaks

variable {α κ : Type*}

section Streak

variable {p : α → Bool} {entries suffix : List α}

theorem suffix_rtakeWhile (hsuffix : suffix <:+ entries) (hall : ∀ a ∈ suffix, p a = true) :
    suffix <:+ entries.rtakeWhile p := by
  rw [List.rtakeWhile, ← List.reverse_prefix, List.reverse_reverse]
  obtain ⟨front, hsplit⟩ := List.reverse_prefix.mpr hsuffix
  rw [← hsplit, List.takeWhile_append_of_pos]
  · exact List.prefix_append _ _
  · intro b hb
    exact hall b (List.mem_reverse.mp hb)

theorem rtakeWhile_isGreatest :
    IsGreatest {n | ∃ suffix, suffix <:+ entries ∧ (∀ a ∈ suffix, p a = true) ∧
      suffix.length = n} (entries.rtakeWhile p).length := by
  constructor
  · exact ⟨_, List.rtakeWhile_suffix p entries, fun _ h => List.mem_rtakeWhile_imp h, rfl⟩
  · rintro n ⟨suffix, hsuffix, hall, rfl⟩
    exact (suffix_rtakeWhile hsuffix hall).length_le

theorem rtakeWhile_of_suffix (hsuffix : suffix <:+ entries) :
    suffix.rtakeWhile p =
      if (entries.rtakeWhile p).length ≤ suffix.length then entries.rtakeWhile p else suffix := by
  have hstreak : entries.rtakeWhile p <:+ entries := List.rtakeWhile_suffix p entries
  split
  next hshort =>
    have hpart : entries.rtakeWhile p <:+ suffix :=
      List.suffix_of_suffix_length_le hstreak hsuffix hshort
    have hle : entries.rtakeWhile p <:+ suffix.rtakeWhile p :=
      suffix_rtakeWhile hpart fun _ h => List.mem_rtakeWhile_imp h
    have hge : suffix.rtakeWhile p <:+ entries.rtakeWhile p :=
      suffix_rtakeWhile ((List.rtakeWhile_suffix p suffix).trans hsuffix)
        fun _ h => List.mem_rtakeWhile_imp h
    exact (hle.eq_of_length (hle.length_le.antisymm hge.length_le)).symm
  next hlong =>
    have hpart : suffix <:+ entries.rtakeWhile p :=
      List.suffix_of_suffix_length_le hsuffix hstreak (not_le.mp hlong).le
    exact List.rtakeWhile_eq_self_iff.mpr fun a ha =>
      List.mem_rtakeWhile_imp (hpart.subset ha)

end Streak

section First

variable (conflicts : α → α → Prop) [DecidableRel conflicts]

/-- The entries that do not conflict with an entry kept before them. -/
def keepFirst : List α → List α → List α
  | _, [] => []
  | kept, a :: rest =>
    if ∃ k ∈ kept, conflicts k a then keepFirst kept rest
    else a :: keepFirst (a :: kept) rest

variable {conflicts} {kept entries : List α} {a : α}

theorem keepFirst_sublist : (keepFirst conflicts kept entries).Sublist entries := by
  induction entries generalizing kept with
  | nil => exact List.Sublist.refl _
  | cons b rest ih =>
    rw [keepFirst]
    split
    · exact ih.cons b
    · exact ih.cons_cons b

theorem mem_keepFirst {lt : α → α → Prop} (hirrefl : ∀ a, ¬ lt a a)
    (hsorted : entries.Pairwise lt) (hasymm : ∀ a b, lt a b → ¬ lt b a) :
    a ∈ keepFirst conflicts kept entries ↔
      a ∈ entries ∧ (∀ k ∈ kept, ¬ conflicts k a) ∧
        ∀ b ∈ keepFirst conflicts kept entries, lt b a → ¬ conflicts b a := by
  induction entries generalizing kept with
  | nil => simp [keepFirst]
  | cons first rest ih =>
    obtain ⟨hfirst, hrest⟩ := List.pairwise_cons.mp hsorted
    rw [keepFirst]
    split
    next hconflict =>
      rw [ih hrest]
      constructor
      · rintro ⟨hmem, hkept, hbefore⟩
        exact ⟨List.mem_cons_of_mem _ hmem, hkept, hbefore⟩
      · rintro ⟨hmem, hkept, hbefore⟩
        rcases List.mem_cons.mp hmem with rfl | hmem
        · obtain ⟨k, hk, hka⟩ := hconflict
          exact absurd hka (hkept k hk)
        · exact ⟨hmem, hkept, hbefore⟩
    next hfree =>
      constructor
      · intro hmem
        rcases List.mem_cons.mp hmem with rfl | hmem
        · refine ⟨List.mem_cons_self, fun k hk hka => hfree ⟨k, hk, hka⟩, ?_⟩
          intro b hb hlt
          rcases List.mem_cons.mp hb with rfl | hb
          · exact absurd hlt (hirrefl _)
          · exact absurd hlt (hasymm _ _ (hfirst b (keepFirst_sublist.subset hb)))
        · obtain ⟨hin, hkept, hbefore⟩ := (ih hrest).mp hmem
          refine ⟨List.mem_cons_of_mem _ hin,
            fun k hk => hkept k (List.mem_cons_of_mem _ hk), ?_⟩
          intro b hb hlt
          rcases List.mem_cons.mp hb with rfl | hb
          · exact hkept b List.mem_cons_self
          · exact hbefore b hb hlt
      · rintro ⟨hmem, hkept, hbefore⟩
        rcases List.mem_cons.mp hmem with rfl | hlater
        · exact List.mem_cons_self
        · apply List.mem_cons_of_mem
          rw [ih hrest]
          refine ⟨hlater, ?_, fun b hb => hbefore b (List.mem_cons_of_mem _ hb)⟩
          intro k hk
          rcases List.mem_cons.mp hk with rfl | hk
          · exact hbefore k List.mem_cons_self (hfirst a hlater)
          · exact hkept k hk

section Repeated

variable [DecidableEq α]

theorem keepFirst_filter_ne (h : ∃ k ∈ kept, conflicts k a) :
    keepFirst conflicts kept (entries.filter (· ≠ a)) = keepFirst conflicts kept entries := by
  induction entries generalizing kept with
  | nil => rfl
  | cons b rest ih =>
    by_cases hb : b = a
    · subst hb
      rw [List.filter_cons_of_neg (by simp), ih h, keepFirst, if_pos h]
    · rw [List.filter_cons_of_pos (by simpa using hb), keepFirst, keepFirst, ih h]
      split
      · rfl
      · rw [ih]
        obtain ⟨k, hk, hka⟩ := h
        exact ⟨k, List.mem_cons_of_mem _ hk, hka⟩

theorem keepFirst_eraseDups (hself : ∀ a, conflicts a a) (kept entries : List α) :
    keepFirst conflicts kept entries.eraseDups = keepFirst conflicts kept entries := by
  induction hlength : entries.length using Nat.strong_induction_on generalizing entries kept with
  | _ n ih =>
    cases entries with
    | nil => simp
    | cons a rest =>
      have hdrop : (rest.filter fun b => !b == a) = rest.filter (· ≠ a) := by
        apply List.filter_congr
        intro b _
        rw [Bool.eq_iff_iff]
        simp
      have hshorter : (rest.filter (· ≠ a)).length < n := by
        rw [← hlength]
        exact (List.length_filter_le _ _).trans_lt (Nat.lt_succ_self _)
      have hrest := fun kept => ih _ hshorter kept _ rfl
      rw [List.eraseDups_cons, hdrop, keepFirst, keepFirst, hrest, hrest]
      split
      next hconflict => exact keepFirst_filter_ne hconflict
      · rw [keepFirst_filter_ne ⟨a, List.mem_cons_self, hself a⟩]

theorem keepFirst_eq_eraseDups (hself : ∀ a, conflicts a a)
    (hequal : ∀ a ∈ entries, ∀ b ∈ entries, conflicts a b → a = b) :
    keepFirst conflicts [] entries = entries.eraseDups := by
  rw [← keepFirst_eraseDups hself [] entries]
  have hnodup := Groups.nodup_eraseDups entries
  have hequal : ∀ a ∈ entries.eraseDups, ∀ b ∈ entries.eraseDups, conflicts a b → a = b :=
    fun a ha b hb => hequal a (List.mem_eraseDups.mp ha) b (List.mem_eraseDups.mp hb)
  generalize entries.eraseDups = distinct at hnodup hequal
  have hall : ∀ (front rest : List α), front.reverse ++ rest = distinct →
      keepFirst conflicts front rest = rest := by
    intro front rest
    induction rest generalizing front with
    | nil => exact fun _ => rfl
    | cons b rest ih =>
      intro hsplit
      have hfresh : ¬ ∃ k ∈ front, conflicts k b := by
        rintro ⟨k, hk, hkb⟩
        rw [← hsplit] at hnodup hequal
        have hb : b ∈ front.reverse ++ b :: rest := by simp
        obtain rfl := hequal k (by simp [hk]) b hb hkb
        have hdisjoint := (List.nodup_append.mp hnodup).2.2
        exact hdisjoint k (List.mem_reverse.mpr hk) k List.mem_cons_self rfl
      rw [keepFirst, if_neg hfresh, ih (b :: front) (by simpa using hsplit)]
  exact hall [] distinct rfl

end Repeated

end First

section Sorted

variable [LinearOrder κ] [DecidableEq α] {key : α → κ} {xs ys : List α}

/-- Sorted entries with distinct keys are in strictly increasing order once the
repeated ones are dropped. -/
theorem eraseDups_increasing (hsorted : xs.Pairwise fun a b => key a ≤ key b)
    (hkeys : ∀ a ∈ xs, ∀ b ∈ xs, key a = key b → a = b) :
    xs.eraseDups.Pairwise fun a b => key a < key b := by
  have hsub : xs.eraseDups.Pairwise fun a b => key a ≤ key b :=
    hsorted.sublist (Groups.eraseDups_sublist xs)
  have hdistinct : xs.eraseDups.Pairwise fun a b => a ≠ b := Groups.nodup_eraseDups xs
  have hboth := hsub.and hdistinct
  refine hboth.imp_of_mem ?_
  intro a b ha hb hab
  refine lt_of_le_of_ne hab.1 fun heq => hab.2 ?_
  exact hkeys a (List.mem_eraseDups.mp ha) b (List.mem_eraseDups.mp hb) heq

theorem eraseDups_eq_of_mem_iff (hmem : ∀ a, a ∈ xs ↔ a ∈ ys)
    (hxs : xs.Pairwise fun a b => key a ≤ key b) (hys : ys.Pairwise fun a b => key a ≤ key b)
    (hkeys : ∀ a ∈ xs, ∀ b ∈ xs, key a = key b → a = b) : xs.eraseDups = ys.eraseDups := by
  have hkeys' : ∀ a ∈ ys, ∀ b ∈ ys, key a = key b → a = b :=
    fun a ha b hb => hkeys a ((hmem a).mpr ha) b ((hmem b).mpr hb)
  have hperm : xs.eraseDups.Perm ys.eraseDups := by
    rw [List.perm_ext_iff_of_nodup (Groups.nodup_eraseDups xs) (Groups.nodup_eraseDups ys)]
    intro a
    rw [List.mem_eraseDups, List.mem_eraseDups, hmem]
  exact Ranking.eq_of_perm_of_increasing hperm (eraseDups_increasing hxs hkeys)
    (eraseDups_increasing hys hkeys')

omit [DecidableEq α] in
/-- Lists in strictly increasing order are determined by what they hold. -/
theorem eq_of_mem_iff_of_increasing (hmem : ∀ a, a ∈ xs ↔ a ∈ ys)
    (hxs : xs.Pairwise fun a b => key a < key b) (hys : ys.Pairwise fun a b => key a < key b) :
    xs = ys := by
  have hnodup : ∀ {zs : List α}, (zs.Pairwise fun a b => key a < key b) → zs.Nodup :=
    fun h => h.imp fun hlt heq => absurd (congrArg key heq) hlt.ne
  have hperm : xs.Perm ys := (List.perm_ext_iff_of_nodup (hnodup hxs) (hnodup hys)).mpr hmem
  exact Ranking.eq_of_perm_of_increasing hperm hxs hys

end Sorted

theorem filter_suffix {p : α → Bool} {entries : List α}
    (h : entries.Pairwise fun a b => p a = true → p b = true) : entries.filter p <:+ entries := by
  induction entries with
  | nil => exact List.suffix_refl _
  | cons a rest ih =>
    obtain ⟨hfirst, hrest⟩ := List.pairwise_cons.mp h
    by_cases ha : p a = true
    · have hall : (a :: rest).filter p = a :: rest := by
        apply List.filter_eq_self.mpr
        intro b hb
        rcases List.mem_cons.mp hb with rfl | hb
        · exact ha
        · exact hfirst b hb ha
      rw [hall]
    · rw [List.filter_cons_of_neg ha]
      exact (ih hrest).trans (List.suffix_cons a rest)

end KAssetTrader.Streaks
