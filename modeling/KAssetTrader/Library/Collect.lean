import KAssetTrader.Library.Checked
import KAssetTrader.Library.Dict

/-!
Lists of computations in another order: the results come in that order, and computations that
can fail in one way only fail alike. Dictionaries of the same entries look up alike.
-/

namespace KAssetTrader

universe u v

namespace Checked

variable {ε α κ β : Type u}

section Loop

variable [DecidableEq κ]

variable {name : α → Except ε κ} {duplicate : ε} {check : α → Except ε β} {d e : Dict κ β}
  {item : α} {items other : List α}

theorem mapM_perm {f : α → Except ε β} {results : List β} (hperm : items.Perm other)
    (h : items.mapM f = .ok results) :
    ∃ others, other.mapM f = .ok others ∧ results.Perm others := by
  induction hperm generalizing results with
  | nil => exact ⟨results, h, List.Perm.refl _⟩
  | cons a _ ih =>
    rw [List.mapM_cons] at h
    obtain ⟨b, hb, h⟩ := bind_ok_iff.mp h
    obtain ⟨later, hlater, h⟩ := bind_ok_iff.mp h
    cases h
    obtain ⟨others, hothers, hsame⟩ := ih hlater
    refine ⟨b :: others, ?_, hsame.cons b⟩
    rw [List.mapM_cons, hb, hothers]
    rfl
  | swap a c rest =>
    rw [List.mapM_cons] at h
    obtain ⟨first, hfirst, h⟩ := bind_ok_iff.mp h
    obtain ⟨later, hlater, h⟩ := bind_ok_iff.mp h
    cases h
    rw [List.mapM_cons] at hlater
    obtain ⟨second, hsecond, hlater⟩ := bind_ok_iff.mp hlater
    obtain ⟨others, hothers, hlater⟩ := bind_ok_iff.mp hlater
    cases hlater
    refine ⟨second :: first :: others, ?_, List.Perm.swap _ _ _⟩
    rw [List.mapM_cons, List.mapM_cons, hsecond, hfirst, hothers]
    rfl
  | trans _ _ ih₁ ih₂ =>
    obtain ⟨middle, hmiddle, hleft⟩ := ih₁ h
    obtain ⟨others, hothers, hright⟩ := ih₂ hmiddle
    exact ⟨others, hothers, hleft.trans hright⟩

end Loop

section Results

variable {γ δ : Type u} {f : α → Except ε β} {items : List α} {results : List β}

/-- A loop whose steps return for an item whatever came before returns exactly when all do. -/
theorem foldlM_ok_iff {step : γ → α → Except ε γ} {P : α → Prop}
    (hstep : ∀ state item, (∃ next, step state item = .ok next) ↔ P item) {start : γ} :
    (∃ final, items.foldlM step start = .ok final) ↔ ∀ item ∈ items, P item := by
  induction items generalizing start with
  | nil => exact ⟨fun _ => List.forall_mem_nil _, fun _ => ⟨start, rfl⟩⟩
  | cons item rest ih =>
    rw [List.foldlM_cons, List.forall_mem_cons]
    constructor
    · rintro ⟨final, h⟩
      obtain ⟨next, hnext, h⟩ := bind_ok_iff.mp h
      exact ⟨(hstep start item).mp ⟨next, hnext⟩, ih.mp ⟨final, h⟩⟩
    · rintro ⟨hitem, hrest⟩
      obtain ⟨next, hnext⟩ := (hstep start item).mpr hitem
      rw [hnext, ok_bind]
      exact ih.mpr hrest

theorem mapM_congr_mem {g : α → Except ε β} (h : ∀ item ∈ items, f item = g item) :
    items.mapM f = items.mapM g := by
  induction items with
  | nil => rfl
  | cons item rest ih =>
    rw [List.mapM_cons, List.mapM_cons, h item List.mem_cons_self,
      ih fun other hother => h other (List.mem_cons_of_mem item hother)]

theorem exists_mem_of_mapM_ok (h : items.mapM f = .ok results) {item : α} (hitem : item ∈ items) :
    ∃ b ∈ results, f item = .ok b := by
  induction items generalizing results with
  | nil => cases hitem
  | cons first rest ih =>
    rw [List.mapM_cons] at h
    obtain ⟨b, hb, h⟩ := bind_ok_iff.mp h
    obtain ⟨later, hlater, h⟩ := bind_ok_iff.mp h
    cases h
    rcases List.mem_cons.mp hitem with rfl | hitem
    · exact ⟨b, List.mem_cons_self, hb⟩
    · obtain ⟨found, hfound, hresult⟩ := ih hlater hitem
      exact ⟨found, List.mem_cons_of_mem b hfound, hresult⟩

theorem map_eq_map_of_mapM_ok {g : β → γ} {k : α → γ} (h : items.mapM f = .ok results)
    (hf : ∀ item ∈ items, ∀ b, f item = .ok b → g b = k item) :
    results.map g = items.map k := by
  induction items generalizing results with
  | nil =>
    cases h
    rfl
  | cons item rest ih =>
    rw [List.mapM_cons] at h
    obtain ⟨b, hb, h⟩ := bind_ok_iff.mp h
    obtain ⟨later, hlater, h⟩ := bind_ok_iff.mp h
    cases h
    rw [List.map_cons, List.map_cons, hf item List.mem_cons_self b hb,
      ih hlater fun other hother => hf other (List.mem_cons_of_mem item hother)]

theorem filterMap_of_mapM_ok {g : β → Option γ} (h : items.mapM f = .ok results) :
    results.filterMap g = items.filterMap fun item => (f item).toOption.bind g := by
  induction items generalizing results with
  | nil =>
    cases h
    rfl
  | cons item rest ih =>
    rw [List.mapM_cons] at h
    obtain ⟨b, hb, h⟩ := bind_ok_iff.mp h
    obtain ⟨later, hlater, h⟩ := bind_ok_iff.mp h
    cases h
    rw [List.filterMap_cons, List.filterMap_cons, ih hlater, hb]
    rfl

theorem map_filterMap_append_perm {k : α → κ} {left : α → Option γ} {right : α → Option δ}
    {leftKey : γ → κ} {rightKey : δ → κ} {items : List α}
    (h : ∀ item ∈ items, (∃ c, left item = some c ∧ leftKey c = k item ∧ right item = none) ∨
      ∃ d, right item = some d ∧ rightKey d = k item ∧ left item = none) :
    ((items.filterMap left).map leftKey ++ (items.filterMap right).map rightKey).Perm
      (items.map k) := by
  induction items with
  | nil => exact List.Perm.refl _
  | cons item rest ih =>
    have hrest := ih fun other hother => h other (List.mem_cons_of_mem item hother)
    rw [List.filterMap_cons, List.filterMap_cons, List.map_cons]
    rcases h item List.mem_cons_self with ⟨c, hleft, hkey, hright⟩ | ⟨d, hright, hkey, hleft⟩
    · rw [hleft, hright, List.map_cons, List.cons_append, hkey]
      exact hrest.cons _
    · rw [hleft, hright, List.map_cons, hkey]
      exact List.perm_middle.trans (hrest.cons _)

end Results

section Partial

variable {f : α → Option β} {items : List α} {results : List β}

theorem mapM_isSome_iff :
    (items.mapM f).isSome ↔ ∀ item ∈ items, (f item).isSome := by
  induction items with
  | nil => simp
  | cons item rest ih =>
    rw [List.mapM_cons]
    cases hitem : f item with
    | none => simp [hitem]
    | some value =>
      cases hrest : rest.mapM f with
      | none => simpa [hitem, hrest] using ih
      | some values => simpa [hitem, hrest] using ih

theorem mem_of_mapM_eq_some (h : items.mapM f = some results) {b : β} :
    b ∈ results ↔ ∃ item ∈ items, f item = some b := by
  induction items generalizing results with
  | nil =>
    cases h
    simp
  | cons item rest ih =>
    rw [List.mapM_cons] at h
    obtain ⟨first, hfirst, h⟩ := Option.bind_eq_some_iff.mp h
    obtain ⟨later, hlater, h⟩ := Option.bind_eq_some_iff.mp h
    cases h
    simp [ih hlater, hfirst, eq_comm]

end Partial

end Checked

namespace Dict

variable {κ : Type u} {ν : Type v} [DecidableEq κ] {d e : Dict κ ν}

theorem get?_filter_key {p : κ → Bool} (k : κ) :
    (d.filter fun key _ => p key).get? k = if p k then d.get? k else none := by
  ext v
  rw [get?_filter_eq_some]
  by_cases hp : p k = true
  · simp [hp]
  · simp [hp]

section Items

variable {α : Type*} {key : α → κ} {value : α → ν} {items : List α}

theorem get?_foldl_set_items (k : κ) :
    (items.foldl (fun d item => d.set (key item) (value item)) d).get? k =
      ((items.reverse.find? fun item => decide (key item = k)).map value).or (d.get? k) := by
  induction items generalizing d with
  | nil => simp
  | cons item rest ih =>
    rw [List.foldl_cons, ih, List.reverse_cons, List.find?_append, get?_set]
    cases rest.reverse.find? fun item => decide (key item = k) with
    | some found => simp
    | none =>
      by_cases hkey : key item = k
      · simp [hkey]
      · simp [hkey, Ne.symm hkey]

theorem find?_reverse_of_nodup (hnodup : (items.map key).Nodup) {item : α}
    (hitem : item ∈ items) :
    (items.reverse.find? fun other => decide (key other = key item)) = some item := by
  have hreverse : (items.reverse.map key).Nodup := by
    rw [List.map_reverse]
    exact List.nodup_reverse.mpr hnodup
  cases hfound : items.reverse.find? fun other => decide (key other = key item) with
  | none =>
    have hother := List.find?_eq_none.mp hfound item (List.mem_reverse.mpr hitem)
    exact absurd (decide_eq_true rfl) hother
  | some found =>
    have hkey : key found = key item := by simpa using List.find?_some hfound
    rw [List.inj_on_of_nodup_map hreverse (List.mem_of_find?_eq_some hfound)
      (List.mem_reverse.mpr hitem) hkey]

end Items

end Dict

namespace Checked

variable {ε α β γ : Type u} {e : ε} {x : Except ε α} {f : α → Except ε β}

/-- No error but `e`. -/
def OnlyError (e : ε) (x : Except ε α) : Prop := ∀ e', x = .error e' → e' = e

theorem onlyError_ok (a : α) : OnlyError e (.ok a) := nofun

theorem onlyError_error : OnlyError e (.error e : Except ε α) :=
    fun _ h => (Except.error.inj h).symm

theorem OnlyError.bind (hx : OnlyError e x) (hf : ∀ a, x = .ok a → OnlyError e (f a)) :
    OnlyError e (x >>= f) := by
  intro e' h
  rcases bind_error_iff.mp h with hfails | ⟨a, ha, hfails⟩
  · exact hx e' hfails
  · exact hf a ha e' hfails

theorem OnlyError.map {g : α → β} (hx : OnlyError e x) : OnlyError e (g <$> x) := by
  cases x with
  | error e' => exact fun _ h => hx _ (Except.error.inj h ▸ rfl)
  | ok a => exact onlyError_ok (g a)

theorem onlyError_mapM {items : List α} (h : ∀ item ∈ items, OnlyError e (f item)) :
    OnlyError e (items.mapM f) := by
  induction items with
  | nil => exact onlyError_ok []
  | cons item rest ih =>
    rw [List.mapM_cons]
    refine (h item List.mem_cons_self).bind fun b _ => ?_
    refine (ih fun other hother => h other (List.mem_cons_of_mem item hother)).bind fun _ _ => ?_
    exact onlyError_ok _

theorem onlyError_foldlM {step : γ → α → Except ε γ} {items : List α} {start : γ}
    (h : ∀ state item, OnlyError e (step state item)) : OnlyError e (items.foldlM step start) := by
  induction items generalizing start with
  | nil => exact onlyError_ok start
  | cons item rest ih =>
    rw [List.foldlM_cons]
    exact (h start item).bind fun next _ => ih

/-- Over the items in another order the computations fail alike or give the same results. -/
theorem mapM_perm_cases {items other : List α} (hperm : items.Perm other)
    (h : ∀ item ∈ items, OnlyError e (f item)) :
    items.mapM f = .error e ∧ other.mapM f = .error e ∨
      ∃ results others, items.mapM f = .ok results ∧ other.mapM f = .ok others ∧
        results.Perm others := by
  cases hitems : items.mapM f with
  | ok results =>
    obtain ⟨others, hothers, hsame⟩ := mapM_perm hperm hitems
    exact .inr ⟨results, others, rfl, hothers, hsame⟩
  | error e' =>
    obtain rfl := onlyError_mapM h e' hitems
    refine .inl ⟨rfl, ?_⟩
    cases hother : other.mapM f with
    | ok others =>
      obtain ⟨results, hresults, -⟩ := mapM_perm hperm.symm hother
      rw [hitems] at hresults
      cases hresults
    | error e'' =>
      have hsame := onlyError_mapM (fun item hitem => h item (hperm.mem_iff.mpr hitem)) e'' hother
      rw [hsame]

end Checked

end KAssetTrader
