import Mathlib.Data.List.Sort
import Mathlib.Data.List.TakeWhile
import Mathlib.Tactic

/-!
Timelines: a value that changes at known instants, stored as the list of its
versions in order of the instant each one took effect. The only edit is a
splice: from an instant on, apply a function to every value in force, adding a
version at that instant when none starts there. The theorems say what a splice
does to the value in force at every instant, and that the list of versions is
determined by its instants together with the values in force at them.

Instants are any linear order. An order with a least element models a first
version that has always been in force.
-/

namespace KAssetTrader.Timeline

variable {K L M : Type*} [LinearOrder K]

def Ordered (versions : List (K × L)) : Prop :=
  versions.Pairwise (fun a b => a.1 < b.1)

/-- The value of the last version whose instant is not after `k`. -/
def inForce (versions : List (K × L)) (k : K) : Option L :=
  ((versions.filter (fun v => v.1 ≤ k)).getLast?).map Prod.snd

/-- Some version already holds at `k`. -/
def Covers (versions : List (K × L)) (k : K) : Prop :=
  ∃ v ∈ versions, v.1 ≤ k

def earlier (t : K) (versions : List (K × L)) : List (K × L) :=
  versions.takeWhile (fun v => v.1 < t)

def since (t : K) (versions : List (K × L)) : List (K × L) :=
  versions.dropWhile (fun v => v.1 < t)

/-- From `t` on, replace every value in force by its image under `f`. -/
def splice (t : K) (f : L → L) (versions : List (K × L)) : List (K × L) :=
  let later := (since t versions).map (Prod.map id f)
  if (since t versions).head?.map Prod.fst = some t then
    earlier t versions ++ later
  else match (earlier t versions).getLast? with
    | some source => earlier t versions ++ (t, f source.2) :: later
    | none => later

section Parts

variable (t : K) (versions : List (K × L))

theorem earlier_append_since : earlier t versions ++ since t versions = versions :=
  List.takeWhile_append_dropWhile

theorem lt_of_mem_earlier {v : K × L} (hv : v ∈ earlier t versions) : v.1 < t := by
  simpa using List.mem_takeWhile_imp hv

theorem le_of_mem_since {versions : List (K × L)} (hs : Ordered versions)
    {v : K × L} (hv : v ∈ since t versions) : t ≤ v.1 := by
  induction versions with
  | nil => simp [since] at hv
  | cons first rest ih =>
    have hrest : Ordered rest := (List.pairwise_cons.mp hs).2
    by_cases hfirst : first.1 < t
    · exact ih hrest (by simpa [since, hfirst] using hv)
    · have hmem : v = first ∨ v ∈ rest := by simpa [since, hfirst] using hv
      rcases hmem with rfl | hmem
      · exact not_lt.mp hfirst
      · exact (not_lt.mp hfirst).trans ((List.pairwise_cons.mp hs).1 v hmem).le

theorem mem_iff_earlier_or_since {v : K × L} :
    v ∈ versions ↔ v ∈ earlier t versions ∨ v ∈ since t versions := by
  rw [← List.mem_append, earlier_append_since]

theorem head_since_of_mem {versions : List (K × L)} (hs : Ordered versions)
    {l : L} (hl : (t, l) ∈ versions) :
    (since t versions).head?.map Prod.fst = some t := by
  have hl' : (t, l) ∈ since t versions := by
    rcases (mem_iff_earlier_or_since t versions).mp hl with h | h
    · exact absurd (lt_of_mem_earlier t versions h) (lt_irrefl t)
    · exact h
  have hso : Ordered (since t versions) := by
    unfold Ordered at hs ⊢
    exact hs.sublist (List.dropWhile_sublist _)
  cases hcase : since t versions with
  | nil => simp [hcase] at hl'
  | cons first rest =>
    rw [hcase] at hl' hso
    have hfirst : t ≤ first.1 := le_of_mem_since t hs (by simp [hcase])
    rcases List.mem_cons.mp hl' with heq | hrest
    · simp [← heq]
    · exact absurd ((List.pairwise_cons.mp hso).1 _ hrest) (not_lt.mpr hfirst)

end Parts

section InForce

theorem inForce_append (vs ws : List (K × L)) (k : K) :
    inForce (vs ++ ws) k = (inForce ws k).or (inForce vs k) := by
  unfold inForce
  rw [List.filter_append, List.getLast?_append]
  cases (List.filter (fun v => decide (v.1 ≤ k)) ws).getLast? <;> simp

theorem inForce_map (f : L → L) (vs : List (K × L)) (k : K) :
    inForce (vs.map (Prod.map id f)) k = (inForce vs k).map f := by
  unfold inForce
  rw [List.filter_map, List.getLast?_map]
  simp only [Option.map_map]
  rfl

variable {vs : List (K × L)} {k : K} {l : L}

theorem inForce_eq_none (h : ∀ v ∈ vs, k < v.1) :
    inForce vs k = none := by
  have hnil : vs.filter (fun v => v.1 ≤ k) = [] := by
    rw [List.filter_eq_nil_iff]
    intro v hv
    simpa using h v hv
  simp [inForce, hnil]

theorem inForce_of_all (h : ∀ v ∈ vs, v.1 ≤ k) :
    inForce vs k = vs.getLast?.map Prod.snd := by
  have hall : vs.filter (fun v => v.1 ≤ k) = vs := by
    rw [List.filter_eq_self]
    intro v hv
    simpa using h v hv
  simp [inForce, hall]

theorem inForce_isSome_iff :
    (inForce vs k).isSome ↔ Covers vs k := by
  unfold inForce Covers
  rw [Option.isSome_map, List.getLast?_isSome]
  constructor
  · intro h
    obtain ⟨v, hv⟩ := List.exists_mem_of_ne_nil _ h
    exact ⟨v, by simpa using hv⟩
  · rintro ⟨v, hv, hk⟩ hnil
    have := (List.filter_eq_nil_iff.mp hnil) v hv
    simp [hk] at this

theorem exists_of_inForce (h : inForce vs k = some l) : ∃ s, (s, l) ∈ vs ∧ s ≤ k := by
  unfold inForce at h
  obtain ⟨v, hv, rfl⟩ := Option.map_eq_some_iff.mp h
  have hmem := List.mem_of_getLast? hv
  have hmem' : v ∈ vs ∧ v.1 ≤ k := by simpa using hmem
  exact ⟨v.1, hmem'.1, hmem'.2⟩

theorem inForce_at (hs : Ordered vs) (h : (k, l) ∈ vs) : inForce vs k = some l := by
  induction vs with
  | nil => simp at h
  | cons first rest ih =>
    obtain ⟨hfirst, hrest⟩ := List.pairwise_cons.mp hs
    have happend : inForce (first :: rest) k =
        (inForce rest k).or (inForce [first] k) :=
      inForce_append [first] rest k
    rcases List.mem_cons.mp h with heq | hmem
    · have hnone : inForce rest k = none :=
        inForce_eq_none (fun v hv => by simpa [← heq] using hfirst v hv)
      rw [happend, hnone]
      simp [inForce, ← heq]
    · rw [happend, ih hrest hmem]
      rfl

end InForce

variable {t : K} {versions : List (K × L)}

section Splice

variable (f : L → L)

theorem splice_cases (hc : Covers versions t) (hs : Ordered versions) :
    ((since t versions).head?.map Prod.fst = some t ∧
      splice t f versions =
        earlier t versions ++ (since t versions).map (Prod.map id f)) ∨
    (∃ source, (earlier t versions).getLast? = some source ∧
      (∀ v ∈ since t versions, t < v.1) ∧
      splice t f versions =
        earlier t versions ++ (t, f source.2) ::
          (since t versions).map (Prod.map id f)) := by
  by_cases hhead : (since t versions).head?.map Prod.fst = some t
  · exact Or.inl ⟨hhead, by simp [splice, hhead]⟩
  · right
    have hlater : ∀ v ∈ since t versions, t < v.1 := by
      intro v hv
      refine lt_of_le_of_ne (le_of_mem_since t hs hv) ?_
      intro heq
      have hmem : (t, v.2) ∈ versions := by
        rw [mem_iff_earlier_or_since t]
        exact Or.inr (by simpa [heq] using hv)
      exact hhead (head_since_of_mem t hs hmem)
    have hne : (earlier t versions) ≠ [] := by
      obtain ⟨v, hv, hvt⟩ := hc
      rcases (mem_iff_earlier_or_since t versions).mp hv with h | h
      · exact List.ne_nil_of_mem h
      · exact absurd (hlater v h) (not_lt.mpr hvt)
    obtain ⟨source, hsource⟩ : ∃ source, (earlier t versions).getLast? = some source :=
      ⟨_, List.getLast?_eq_some_getLast hne⟩
    exact ⟨source, hsource, hlater, by simp [splice, hhead, hsource]⟩

section

variable (hs : Ordered versions) (hc : Covers versions t)
include hs hc

theorem splice_ordered :
    Ordered (splice t f versions) := by
  have hearlier : Ordered (earlier t versions) :=
    List.Pairwise.sublist (List.takeWhile_sublist _) hs
  have hlater : Ordered ((since t versions).map (Prod.map id f)) := by
    unfold Ordered
    rw [List.pairwise_map]
    exact List.Pairwise.sublist (List.dropWhile_sublist _) hs
  have hlate (v : K × L) (hv : v ∈ (since t versions).map (Prod.map id f)) : t ≤ v.1 := by
    obtain ⟨w, hw, rfl⟩ := List.mem_map.mp hv
    exact (le_of_mem_since t hs hw : t ≤ w.1)
  rcases splice_cases f hc hs with ⟨_, heq⟩ | ⟨source, hsource, hgt, heq⟩
  · rw [heq]
    refine List.pairwise_append.mpr ⟨hearlier, hlater, ?_⟩
    intro a ha b hb
    exact (lt_of_mem_earlier t versions ha).trans_le (hlate b hb)
  · rw [heq]
    refine List.pairwise_append.mpr ⟨hearlier, List.pairwise_cons.mpr ⟨?_, hlater⟩, ?_⟩
    · intro v hv
      obtain ⟨w, hw, rfl⟩ := List.mem_map.mp hv
      exact hgt w hw
    · intro a ha b hb
      have hat := lt_of_mem_earlier t versions ha
      rcases List.mem_cons.mp hb with rfl | hb
      · exact hat
      · exact hat.trans_le (hlate b hb)

theorem mem_starts_splice (k : K) :
    k ∈ (splice t f versions).map Prod.fst ↔ k = t ∨ k ∈ versions.map Prod.fst := by
  have hstarts : ((since t versions).map (Prod.map id f)).map Prod.fst =
      (since t versions).map Prod.fst := by
    simp [Function.comp_def]
  have hversions : versions.map Prod.fst =
      (earlier t versions).map Prod.fst ++ (since t versions).map Prod.fst := by
    rw [← List.map_append, earlier_append_since]
  rcases splice_cases f hc hs with ⟨hhead, heq⟩ | ⟨source, _, _, heq⟩
  · have ht : t ∈ versions.map Prod.fst := by
      rw [hversions, List.mem_append]
      obtain ⟨v, hv, hvt⟩ := Option.map_eq_some_iff.mp hhead
      exact Or.inr (List.mem_map.mpr ⟨v, List.mem_of_mem_head? hv, hvt⟩)
    rw [heq, List.map_append, hstarts, ← hversions]
    constructor
    · exact Or.inr
    · rintro (rfl | h)
      · exact ht
      · exact h
  · rw [heq, List.map_append, List.map_cons, hstarts, hversions]
    simp only [List.mem_append, List.mem_cons]
    tauto

theorem inForce_splice (k : K) :
    inForce (splice t f versions) k =
      if k < t then inForce versions k else (inForce versions k).map f := by
  have hversions : inForce versions k =
      (inForce (since t versions) k).or (inForce (earlier t versions) k) := by
    rw [← inForce_append, earlier_append_since]
  split
  next hk =>
    have hnone (ws : List (K × L)) (hws : ∀ v ∈ ws, t ≤ v.1) : inForce ws k = none :=
      inForce_eq_none (fun v hv => hk.trans_le (hws v hv))
    have hsince := hnone _ (fun v hv => le_of_mem_since t hs hv)
    rcases splice_cases f hc hs with ⟨_, heq⟩ | ⟨source, _, _, heq⟩
    · rw [heq, inForce_append, inForce_map, hversions, hsince]
      rfl
    · have hadded : inForce ((t, f source.2) :: (since t versions).map (Prod.map id f)) k =
          none := by
        apply hnone
        intro v hv
        rcases List.mem_cons.mp hv with rfl | hv
        · exact le_rfl
        · obtain ⟨w, hw, rfl⟩ := List.mem_map.mp hv
          exact (le_of_mem_since t hs hw : t ≤ w.1)
      rw [heq, inForce_append, hadded, hversions, hsince]
  next hk =>
    have hle : t ≤ k := not_lt.mp hk
    rcases splice_cases f hc hs with ⟨hhead, heq⟩ | ⟨source, hsource, _, heq⟩
    · -- the version at `t` is in force at `k` or has a successor that is
      have hsome : (inForce (since t versions) k).isSome := by
        obtain ⟨v, hv, hvt⟩ := Option.map_eq_some_iff.mp hhead
        exact inForce_isSome_iff.mpr ⟨v, List.mem_of_mem_head? hv, hvt.le.trans hle⟩
      obtain ⟨l, hl⟩ := Option.isSome_iff_exists.mp hsome
      rw [heq, inForce_append, inForce_map, hversions, hl]
      rfl
    · have hearlier : inForce (earlier t versions) k = some source.2 := by
        rw [inForce_of_all (fun v hv => ((lt_of_mem_earlier t versions hv).trans_le hle).le),
          hsource]
        rfl
      have hadded : inForce [(t, f source.2)] k = some (f source.2) := by
        simp [inForce, hle]
      have hcons : inForce ((t, f source.2) :: (since t versions).map (Prod.map id f)) k =
          ((inForce (since t versions) k).map f).or (some (f source.2)) := by
        rw [← hadded, ← inForce_map, ← inForce_append]
        rfl
      rw [heq, inForce_append, hcons, hversions, hearlier]
      cases inForce (since t versions) k <;> rfl

theorem covers_splice_iff (k : K) :
    Covers (splice t f versions) k ↔ Covers versions k := by
  rw [← inForce_isSome_iff, ← inForce_isSome_iff, inForce_splice f hs hc]
  split <;> simp

theorem forall_splice {P : L → Prop} (hP : ∀ v ∈ versions, P v.2) (hf : ∀ l, P l → P (f l)) :
    ∀ v ∈ splice t f versions, P v.2 := by
  intro v hv
  have hat := inForce_at (splice_ordered f hs hc) (k := v.1) (l := v.2) hv
  rw [inForce_splice f hs hc] at hat
  split at hat
  · obtain ⟨s, hmem, -⟩ := exists_of_inForce hat
    exact hP (s, v.2) hmem
  · obtain ⟨l, hl, hfl⟩ := Option.map_eq_some_iff.mp hat
    obtain ⟨s, hmem, -⟩ := exists_of_inForce hl
    rw [← hfl]
    exact hf l (hP (s, l) hmem)

end

theorem inForce_last {front : List (K × L)} {last : K × L} {k : K} (hk : last.1 ≤ k) :
    inForce (front ++ [last]) k = some last.2 := by
  rw [inForce_append]
  simp [inForce, hk]

theorem splice_last {front front' : List (K × L)} {last last' : K × L}
    (hs : Ordered (front ++ [last])) (hc : Covers (front ++ [last]) t)
    (h : splice t f (front ++ [last]) = front' ++ [last']) : last'.2 = f last.2 := by
  let k := max t (max last.1 last'.1)
  have hinForce := inForce_splice f hs hc k
  rw [h, inForce_last (le_max_of_le_right (le_max_right _ _)),
    inForce_last (le_max_of_le_right (le_max_left _ _)),
    if_neg (not_lt.mpr (le_max_left _ _))] at hinForce
  simpa using hinForce

end Splice

variable {f : L → L}

section Extensionality

theorem ext_of_inForce {vs ws : List (K × L)} (hvs : Ordered vs) (hws : Ordered ws)
    (hstarts : ∀ k, k ∈ vs.map Prod.fst ↔ k ∈ ws.map Prod.fst)
    (hlevels : ∀ k, inForce vs k = inForce ws k) : vs = ws := by
  have hmem (a b : List (K × L)) (ha : Ordered a) (hb : Ordered b)
      (hsub : ∀ k, k ∈ a.map Prod.fst → k ∈ b.map Prod.fst)
      (hlev : ∀ k, inForce a k = inForce b k) (v : K × L) (hv : v ∈ a) : v ∈ b := by
    obtain ⟨w, hw, hkey⟩ := List.mem_map.mp (hsub v.1 (List.mem_map.mpr ⟨v, hv, rfl⟩))
    have hval : some v.2 = some w.2 := by
      rw [← inForce_at ha (k := v.1) (l := v.2) hv,
        ← inForce_at hb (k := v.1) (l := w.2) (by rw [← hkey]; exact hw)]
      exact hlev v.1
    have hvw : v = w := Prod.ext hkey.symm (Option.some.inj hval)
    rwa [hvw]
  have hnodup (a : List (K × L)) (ha : Ordered a) : a.Nodup :=
    ha.imp (fun hlt heq => by subst heq; exact lt_irrefl _ hlt)
  have hperm : vs.Perm ws := by
    refine (List.perm_ext_iff_of_nodup (hnodup vs hvs) (hnodup ws hws)).mpr ?_
    intro v
    exact ⟨hmem vs ws hvs hws (fun k => (hstarts k).mp) hlevels v,
      hmem ws vs hws hvs (fun k => (hstarts k).mpr) (fun k => (hlevels k).symm) v⟩
  exact hperm.eq_of_pairwise (fun a b _ _ hab hba => absurd hab (lt_asymm hba)) hvs hws

variable {u : K} {g : L → L}

theorem splice_comm (hs : Ordered versions) (ht : Covers versions t)
    (hu : Covers versions u) (hfg : ∀ l, f (g l) = g (f l)) :
    splice t f (splice u g versions) = splice u g (splice t f versions) := by
  have hsu := splice_ordered g hs hu
  have hst := splice_ordered f hs ht
  have hcu : Covers (splice u g versions) t := (covers_splice_iff g hs hu t).mpr ht
  have hct : Covers (splice t f versions) u := (covers_splice_iff f hs ht u).mpr hu
  apply ext_of_inForce (splice_ordered f hsu hcu) (splice_ordered g hst hct)
  · intro k
    rw [mem_starts_splice f hsu hcu, mem_starts_splice g hst hct,
      mem_starts_splice g hs hu, mem_starts_splice f hs ht]
    tauto
  · intro k
    rw [inForce_splice f hsu hcu, inForce_splice g hst hct,
      inForce_splice g hs hu, inForce_splice f hs ht]
    cases inForce versions k <;> split <;> split <;> simp [hfg]

theorem splice_idem (hs : Ordered versions) (ht : Covers versions t)
    (hf : ∀ l, f (f l) = f l) :
    splice t f (splice t f versions) = splice t f versions := by
  have hst := splice_ordered f hs ht
  have hct : Covers (splice t f versions) t := (covers_splice_iff f hs ht t).mpr ht
  apply ext_of_inForce (splice_ordered f hst hct) hst
  · intro k
    rw [mem_starts_splice f hst hct, mem_starts_splice f hs ht]
    tauto
  · intro k
    rw [inForce_splice f hst hct, inForce_splice f hs ht]
    cases inForce versions k <;> split <;> simp [hf]

end Extensionality

variable [Preorder M] {rank : L → M}

/-- The rank of the value in force never falls from one version to the next. -/
def Rising (rank : L → M) (versions : List (K × L)) : Prop :=
  versions.Pairwise (fun a b => rank a.2 ≤ rank b.2)

/-- A splice that only raises values, and raises them monotonically, keeps a
timeline rising. -/
theorem splice_rising (hs : Ordered versions) (hc : Covers versions t)
    (hr : Rising rank versions) (hup : ∀ l, rank l ≤ rank (f l))
    (hmono : ∀ a b, rank a ≤ rank b → rank (f a) ≤ rank (f b)) :
    Rising rank (splice t f versions) := by
  have hsplit : Rising rank (earlier t versions ++ since t versions) := by
    rw [earlier_append_since]
    exact hr
  obtain ⟨hearlier, hsince, hcross⟩ := List.pairwise_append.mp hsplit
  have hlater : Rising rank ((since t versions).map (Prod.map id f)) := by
    unfold Rising
    rw [List.pairwise_map]
    exact hsince.imp (fun h => hmono _ _ h)
  have hcross' (a b : K × L) (ha : a ∈ earlier t versions)
      (hb : b ∈ (since t versions).map (Prod.map id f)) : rank a.2 ≤ rank b.2 := by
    obtain ⟨w, hw, rfl⟩ := List.mem_map.mp hb
    exact (hcross a ha w hw).trans (hup w.2)
  rcases splice_cases f hc hs with ⟨_, heq⟩ | ⟨source, hsource, _, heq⟩
  · rw [heq]
    exact List.pairwise_append.mpr ⟨hearlier, hlater, fun a ha b hb => hcross' a b ha hb⟩
  · have hmem : source ∈ earlier t versions := List.mem_of_getLast? hsource
    have hlast (a : K × L) (ha : a ∈ earlier t versions) : rank a.2 ≤ rank source.2 := by
      obtain ⟨front, hfront⟩ := List.getLast?_eq_some_iff.mp hsource
      rw [hfront] at ha hearlier
      rcases List.mem_append.mp ha with h | h
      · exact (List.pairwise_append.mp hearlier).2.2 a h source (by simp)
      · rw [List.mem_singleton.mp h]
    rw [heq]
    refine List.pairwise_append.mpr ⟨hearlier, List.pairwise_cons.mpr ⟨?_, hlater⟩, ?_⟩
    · intro b hb
      obtain ⟨w, hw, rfl⟩ := List.mem_map.mp hb
      exact hmono _ _ (hcross source hmem w hw)
    · intro a ha b hb
      rcases List.mem_cons.mp hb with rfl | hb
      · exact (hlast a ha).trans (hup source.2)
      · exact hcross' a b ha hb

end KAssetTrader.Timeline
