import Mathlib.Tactic

/-!
Computations that return a value or raise, and folds of them. The lemmas peel a successful
computation apart, so that a proof never unfolds the whole of it. An invariant of a fold may
speak of the elements that are still ahead, so that it can record what an element needs when
its turn comes.
-/

namespace KAssetTrader.Checked

universe u v

variable {ε : Type u} {α β : Type v}

@[simp] theorem ok_bind (a : α) (f : α → Except ε β) : (Except.ok a >>= f) = f a := rfl

@[simp] theorem error_bind (e : ε) (f : α → Except ε β) :
    ((Except.error e : Except ε α) >>= f) = Except.error e := rfl

theorem bind_ok_iff {x : Except ε α} {f : α → Except ε β} {b : β} :
    (x >>= f) = .ok b ↔ ∃ a, x = .ok a ∧ f a = .ok b := by
  cases x with
  | error e => simp
  | ok a => simp

theorem bind_error_iff {x : Except ε α} {f : α → Except ε β} {e : ε} :
    (x >>= f) = .error e ↔ x = .error e ∨ ∃ a, x = .ok a ∧ f a = .error e := by
  cases x with
  | error e => simp
  | ok a => simp

theorem eq_ok_of_toOption {x : Except ε α} {a : α} (h : x.toOption = some a) : x = .ok a := by
  cases x with
  | error e => cases h
  | ok b => rw [Option.some.inj h]

/-- `if condition: raise error`. -/
def raiseIf (condition : Prop) [Decidable condition] (error : ε) : Except ε Unit :=
  if condition then .error error else .ok ()

theorem raiseIf_bind_ok {β : Type} {condition : Prop} [Decidable condition] {error : ε}
    {next : Unit → Except ε β} {b : β} :
    (raiseIf condition error >>= next) = .ok b ↔ ¬ condition ∧ next () = .ok b := by
  unfold raiseIf
  split
  next h => simp [h]
  next h => simp [h]

theorem exists_ok_of_check {x : Except ε α} {P : α → Prop} [DecidablePred P]
    (h : (x.toOption.any fun a => decide (P a)) = true) : ∃ a, x = .ok a ∧ P a := by
  obtain ⟨a, ha, hP⟩ := (Option.any_eq_true _ _).mp h
  exact ⟨a, eq_ok_of_toOption ha, of_decide_eq_true hP⟩

def error? : Except ε α → Option ε
  | .ok _ => none
  | .error e => some e

theorem eq_error_of_check {x : Except ε α} {e : ε} (h : error? x = some e) : x = .error e := by
  cases x with
  | error found => rw [Option.some.inj h]
  | ok a => cases h

theorem exists_ok_of_check₂ {δ : Type*} {x : Except ε α} {y : Except δ β} {P : α → β → Prop}
    [∀ a b, Decidable (P a b)]
    (h : (x.toOption.any fun a => y.toOption.any fun b => decide (P a b)) = true) :
    ∃ a b, x = .ok a ∧ y = .ok b ∧ P a b := by
  obtain ⟨a, ha, h⟩ := (Option.any_eq_true _ _).mp h
  obtain ⟨b, hb, hP⟩ := (Option.any_eq_true _ _).mp h
  exact ⟨a, b, eq_ok_of_toOption ha, eq_ok_of_toOption hb, of_decide_eq_true hP⟩

@[simp] theorem map_ok (f : α → β) (a : α) : (f <$> (Except.ok a : Except ε α)) = .ok (f a) :=
  rfl

theorem map_eq_ok_iff {f : α → β} {x : Except ε α} {b : β} :
    f <$> x = .ok b ↔ ∃ a, x = .ok a ∧ f a = b := by
  cases x with
  | error e => simp
  | ok a => simp

theorem map_ok_iff {f : α → β} {x : Except ε α} :
    (∃ b, f <$> x = .ok b) ↔ ∃ a, x = .ok a := by
  cases x with
  | error e => simp
  | ok a => simp

theorem mapM_eq_ok {f : α → Except ε α} {values : List α} (h : ∀ v ∈ values, f v = .ok v) :
    values.mapM f = .ok values := by
  induction values with
  | nil => rfl
  | cons v rest ih =>
    rw [List.mapM_cons, h v (by simp), ih (fun w hw => h w (by simp [hw]))]
    rfl

theorem map_of_mapM_ok {f : α → Except ε β} {g : α → β} {P : β → Prop}
    (hf : ∀ a b, f a = .ok b → b = g a ∧ P b) {values : List α} {results : List β}
    (h : values.mapM f = .ok results) : results = values.map g ∧ ∀ b ∈ results, P b := by
  induction values generalizing results with
  | nil =>
    cases h
    simp
  | cons a rest ih =>
    rw [List.mapM_cons] at h
    obtain ⟨b, hb, h⟩ := bind_ok_iff.mp h
    obtain ⟨later, hlater, h⟩ := bind_ok_iff.mp h
    cases h
    obtain ⟨rfl, hP⟩ := hf a b hb
    obtain ⟨rfl, hrest⟩ := ih hlater
    exact ⟨rfl, List.forall_mem_cons.mpr ⟨hP, hrest⟩⟩

theorem mem_of_mapM_ok {f : α → Except ε α} (hf : ∀ v w, f v = .ok w → v = w)
    {values results : List α} (h : values.mapM f = .ok results) :
    values = results ∧ ∀ v ∈ values, f v = .ok v := by
  induction values generalizing results with
  | nil =>
    cases h
    exact ⟨rfl, by simp⟩
  | cons v rest ih =>
    rw [List.mapM_cons] at h
    obtain ⟨w, hw, h⟩ := bind_ok_iff.mp h
    obtain ⟨later, hlater, h⟩ := bind_ok_iff.mp h
    cases h
    obtain rfl := hf v w hw
    obtain ⟨rfl, hrest⟩ := ih hlater
    exact ⟨rfl, List.forall_mem_cons.mpr ⟨hw, hrest⟩⟩

theorem exists_of_mem_mapM_ok {f : α → Except ε β} {values : List α} {results : List β} {b : β}
    (h : values.mapM f = .ok results) (hb : b ∈ results) : ∃ a ∈ values, f a = .ok b := by
  induction values generalizing results with
  | nil =>
    cases h
    cases hb
  | cons a rest ih =>
    rw [List.mapM_cons] at h
    obtain ⟨first, hfirst, h⟩ := bind_ok_iff.mp h
    obtain ⟨later, hlater, h⟩ := bind_ok_iff.mp h
    cases h
    rcases List.mem_cons.mp hb with rfl | hb
    · exact ⟨a, List.mem_cons_self, hfirst⟩
    · obtain ⟨found, hfound, hresult⟩ := ih hlater hb
      exact ⟨found, List.mem_cons_of_mem a hfound, hresult⟩

theorem mapM_ok_iff {f : α → Except ε β} {values : List α} :
    (∃ results, values.mapM f = .ok results) ↔ ∀ v ∈ values, ∃ b, f v = .ok b := by
  induction values with
  | nil => exact ⟨fun _ => List.forall_mem_nil _, fun _ => ⟨[], rfl⟩⟩
  | cons a rest ih =>
    rw [List.forall_mem_cons, ← ih, List.mapM_cons]
    constructor
    · rintro ⟨results, h⟩
      obtain ⟨b, hb, h⟩ := bind_ok_iff.mp h
      obtain ⟨later, hlater, -⟩ := bind_ok_iff.mp h
      exact ⟨⟨b, hb⟩, later, hlater⟩
    · rintro ⟨⟨b, hb⟩, later, hlater⟩
      refine ⟨b :: later, ?_⟩
      rw [hb, hlater]
      rfl

def Raises (x : Except ε α) : Prop := ∃ e, x = .error e

theorem raises_iff {x : Except ε α} : Raises x ↔ ∀ a, x ≠ .ok a := by
  unfold Raises
  cases x with
  | error e => simp
  | ok a => simp

theorem mapM_raises {f : α → Except ε β} {values : List α} {a : α} (hmem : a ∈ values)
    (h : Raises (f a)) : Raises (values.mapM f) := by
  rw [raises_iff] at h ⊢
  induction values with
  | nil => cases hmem
  | cons first rest ih =>
    intro results hok
    rw [List.mapM_cons] at hok
    obtain ⟨b, hb, hok⟩ := bind_ok_iff.mp hok
    obtain ⟨later, hlater, -⟩ := bind_ok_iff.mp hok
    rcases List.mem_cons.mp hmem with rfl | hrest
    · exact h b hb
    · exact ih hrest later hlater

variable {x : Except ε α} {f : α → Except ε β} {P : β → Prop} {Q : α → Prop}

def Ensures (x : Except ε α) (Q : α → Prop) : Prop := ∀ a, x = .ok a → Q a

def Returns (x : Except ε α) (Q : α → Prop) : Prop := ∃ a, x = .ok a ∧ Q a

theorem ensures_ok {a : α} (h : Q a) : Ensures (.ok a : Except ε α) Q := by
  intro found hfound
  rwa [← Except.ok.inj hfound]

theorem returns_ok {a : α} (h : Q a) : Returns (.ok a : Except ε α) Q := ⟨a, rfl, h⟩

theorem Ensures.bind (hx : Ensures x Q) (hf : ∀ a, Q a → Ensures (f a) P) :
    Ensures (x >>= f) P := by
  intro b hb
  obtain ⟨a, ha, hb⟩ := bind_ok_iff.mp hb
  exact hf a (hx a ha) b hb

theorem ensures_bind (hf : ∀ a, Ensures (f a) P) : Ensures (x >>= f) P :=
  Ensures.bind (Q := fun _ => True) (fun _ _ => trivial) fun a _ => hf a

theorem Returns.bind (hx : Returns x Q) (hf : ∀ a, Q a → Returns (f a) P) :
    Returns (x >>= f) P := by
  obtain ⟨a, rfl, ha⟩ := hx
  exact hf a ha

theorem Returns.mono {Q' : α → Prop} (hx : Returns x Q) (h : ∀ a, Q a → Q' a) : Returns x Q' := by
  obtain ⟨a, ha, hQ⟩ := hx
  exact ⟨a, ha, h a hQ⟩

theorem returns_mapM {g : α → Except ε β} {items : List α}
    (h : ∀ item ∈ items, Returns (g item) P) :
    Returns (items.mapM g) fun results => results.length = items.length ∧ ∀ b ∈ results, P b := by
  induction items with
  | nil => exact returns_ok ⟨rfl, List.forall_mem_nil _⟩
  | cons item rest ih =>
    rw [List.mapM_cons]
    refine (h item List.mem_cons_self).bind fun b hb => ?_
    refine (ih fun other hother => h other (List.mem_cons_of_mem item hother)).bind ?_
    rintro results ⟨hlength, hresults⟩
    exact returns_ok ⟨by simp [hlength], List.forall_mem_cons.mpr ⟨hb, hresults⟩⟩

section Fold

variable {ε : Type u} {σ : Type v} {α : Type*} {f : σ → α → Except ε σ}

/-- The state is passed by the fold over the list, its ends included. -/
def Visits (f : σ → α → Except ε σ) (s : σ) (l : List α) (t : σ) : Prop :=
  ∃ done rest, l = done ++ rest ∧ done.foldlM f s = .ok t

/-- The state is passed inside one element of the fold over the list. -/
def VisitsInside (f : σ → α → Except ε σ) (inside : σ → α → σ → Prop) (s : σ) (l : List α)
    (t : σ) : Prop :=
  ∃ done a rest u, l = done ++ a :: rest ∧ done.foldlM f s = .ok u ∧ inside u a t

variable {P : List α → σ → Prop} {s t : σ} {l : List α}

/-- What one element preserves while it is taken from the front of the list,
the fold over a part of the list preserves. -/
theorem foldlM_rest (hstep : ∀ s a rest t, P (a :: rest) s → f s a = .ok t → P rest t)
    {done rest : List α} (h : P (done ++ rest) s) (hrun : done.foldlM f s = .ok t) :
    P rest t := by
  induction done generalizing s with
  | nil =>
    cases hrun
    exact h
  | cons a later ih =>
    rw [List.foldlM_cons] at hrun
    obtain ⟨u, hu, hrun⟩ := bind_ok_iff.mp hrun
    exact ih (hstep s a _ u h hu) hrun

/-- What one element preserves while it is taken from the front of the list,
the fold over the list preserves. -/
theorem foldlM_end (hstep : ∀ s a rest t, P (a :: rest) s → f s a = .ok t → P rest t) (h : P l s)
    (hrun : l.foldlM f s = .ok t) : P [] t :=
  foldlM_rest hstep ((List.append_nil l).symm ▸ h) hrun

theorem foldlM_invariant {P : σ → Prop} (hstep : ∀ s, ∀ a ∈ l, ∀ t, P s → f s a = .ok t → P t)
    (h : P s) (hrun : l.foldlM f s = .ok t) : P t := by
  have hend := foldlM_end (P := fun rest s => (∀ a ∈ rest, a ∈ l) ∧ P s)
    (fun s a rest t hs hst =>
      ⟨fun b hb => hs.1 b (List.mem_cons_of_mem a hb), hstep s a (hs.1 a (by simp)) t hs.2 hst⟩)
    ⟨fun _ ha => ha, h⟩ hrun
  exact hend.2

theorem Visits.rest (hstep : ∀ s a rest t, P (a :: rest) s → f s a = .ok t → P rest t) (h : P l s)
    (hvisits : Visits f s l t) : ∃ rest, P rest t := by
  obtain ⟨done, rest, rfl, hrun⟩ := hvisits
  exact ⟨rest, foldlM_rest hstep h hrun⟩

theorem visits_end (hrun : l.foldlM f s = .ok t) : Visits f s l t :=
  ⟨l, [], (List.append_nil l).symm, hrun⟩

/-- Two folds that agree on every element of the list agree. -/
theorem foldlM_congr {g : σ → α → Except ε σ} (h : ∀ s, ∀ a ∈ l, f s a = g s a) (s : σ) :
    l.foldlM f s = l.foldlM g s := by
  induction l generalizing s with
  | nil => rfl
  | cons a rest ih =>
    rw [List.foldlM_cons, List.foldlM_cons, h s a (by simp)]
    exact bind_congr fun t => ih (fun u b hb => h u b (List.mem_cons_of_mem a hb)) t

end Fold

end KAssetTrader.Checked
