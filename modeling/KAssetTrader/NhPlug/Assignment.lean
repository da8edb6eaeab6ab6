import Mathlib.Tactic

/-!
Which session carries which symbol. A symbol that is still wanted stays in its session, and
the others go, in the order of demand, to the first session with room. Each symbol takes two
registrations of the thirty that a session has, so the sessions have room for all that is
demanded up to the registration budget.
-/

namespace KAssetTrader.NhPlug

def maxSessions : ℕ := 2

def maxKeysPerSession : ℕ := 30

def registrationsPerSymbol : ℕ := 2

/-- `MAX_KEYS_PER_SESSION // REGISTRATIONS_PER_SYMBOL`. -/
def symbolsPerSession : ℕ := maxKeysPerSession / registrationsPerSymbol

def maxSymbols : ℕ := symbolsPerSession * maxSessions

structure Demand where
  symbols : List String
  nodup : symbols.Nodup

def Demand.empty : Demand := ⟨[], List.nodup_nil⟩

/-- `_append_symbol`, on a text without surrounding blanks. -/
def Demand.append (ordered : Demand) (symbol : String) : Demand :=
  if h : symbol.length = 6 ∧ symbol ∉ ordered.symbols then
    { symbols := ordered.symbols ++ [symbol]
      nodup := by
        rw [List.nodup_append]
        refine ⟨ordered.nodup, List.nodup_singleton _, ?_⟩
        intro found hfound other hother hsame
        obtain rfl := List.mem_singleton.mp hother
        exact h.2 (hsame ▸ hfound) }
  else ordered

/-- `demand_symbols`: what is held comes before what is recommended. -/
def demandSymbols (held candidates : List String) : Demand :=
  (held ++ candidates).foldl Demand.append Demand.empty

def Demand.first (demand : Demand) (n : ℕ) : Demand where
  symbols := demand.symbols.take n
  nodup := (List.take_sublist n demand.symbols).nodup demand.nodup

/-- A new symbol goes to the first group with room, if there is one. -/
def place : List (List String) → String → List (List String)
  | [], _ => []
  | group :: rest, symbol =>
    if group.length < symbolsPerSession then (group ++ [symbol]) :: rest
    else group :: place rest symbol

/-- One round of the loop of `_assignment`. -/
def placeNew (plan : List (List String)) (symbol : String) : List (List String) :=
  if symbol ∈ plan.flatten then plan else place plan symbol

/-- `_assignment`: what stays, and then what is new. -/
def assignment (desired : List String) (subscribed : List (List String)) :
    List (List String) :=
  desired.foldl placeNew (subscribed.map fun group => group.filter fun s => s ∈ desired)

section Place

variable {plan : List (List String)} {symbol : String}

theorem place_of_full (hfull : ∀ group ∈ plan, symbolsPerSession ≤ group.length) :
    place plan symbol = plan := by
  induction plan with
  | nil => rfl
  | cons group rest ih =>
    unfold place
    have hhead := hfull group List.mem_cons_self
    rw [if_neg (by omega), ih fun g hg => hfull g (List.mem_cons_of_mem _ hg)]

theorem place_of_room (hroom : ∃ group ∈ plan, group.length < symbolsPerSession) :
    (place plan symbol).flatten.Perm (symbol :: plan.flatten) := by
  induction plan with
  | nil =>
    obtain ⟨group, hgroup, _⟩ := hroom
    cases hgroup
  | cons group rest ih =>
    unfold place
    split
    · rw [List.flatten_cons, List.append_assoc, List.singleton_append, List.flatten_cons]
      exact List.perm_middle
    next hfull =>
      have hrest : ∃ g ∈ rest, g.length < symbolsPerSession := by
        obtain ⟨g, hg, hlength⟩ := hroom
        rcases List.mem_cons.mp hg with rfl | hg
        · exact absurd hlength hfull
        · exact ⟨g, hg, hlength⟩
      rw [List.flatten_cons, List.flatten_cons]
      exact ((ih hrest).append_left group).trans List.perm_middle

theorem place_extends (plan : List (List String)) (symbol : String) :
    List.Forall₂ (fun before after => ∀ s ∈ before, s ∈ after) plan (place plan symbol) := by
  induction plan with
  | nil => exact List.Forall₂.nil
  | cons group rest ih =>
    unfold place
    split
    · refine .cons ?_ ?_
      · intro s hs
        exact List.mem_append_left _ hs
      · exact List.forall₂_same.mpr fun _ _ _ hs => hs
    · exact .cons (fun _ hs => hs) ih

theorem place_capacity (hcapacity : ∀ group ∈ plan, group.length ≤ symbolsPerSession) :
    ∀ group ∈ place plan symbol, group.length ≤ symbolsPerSession := by
  induction plan with
  | nil =>
    intro group hgroup
    cases hgroup
  | cons head rest ih =>
    have hrest : ∀ group ∈ rest, group.length ≤ symbolsPerSession := fun g hg =>
      hcapacity g (List.mem_cons_of_mem _ hg)
    unfold place
    split
    next hroom =>
      intro group hgroup
      rcases List.mem_cons.mp hgroup with rfl | hgroup
      · rw [List.length_append, List.length_singleton]
        omega
      · exact hrest group hgroup
    · intro group hgroup
      rcases List.mem_cons.mp hgroup with rfl | hgroup
      · exact hcapacity _ List.mem_cons_self
      · exact ih hrest group hgroup

theorem room_or_full (plan : List (List String)) :
    (∃ group ∈ plan, group.length < symbolsPerSession) ∨
      ∀ group ∈ plan, symbolsPerSession ≤ group.length := by
  by_cases hroom : ∃ group ∈ plan, group.length < symbolsPerSession
  · exact .inl hroom
  · push Not at hroom
    exact .inr hroom

theorem length_flatten_of_full (hfull : ∀ group ∈ plan, symbolsPerSession ≤ group.length) :
    plan.length * symbolsPerSession ≤ plan.flatten.length := by
  induction plan with
  | nil => simp
  | cons group rest ih =>
    have hhead := hfull group List.mem_cons_self
    have hrest := ih fun g hg => hfull g (List.mem_cons_of_mem _ hg)
    rw [List.flatten_cons, List.length_append, List.length_cons, Nat.add_mul, one_mul]
    omega

end Place

/-- A plan in the making: it serves wanted symbols, each once and within the capacity, and
it keeps what was there. -/
structure PlanKept (desired : List String) (subscribed plan : List (List String)) : Prop where
  nodup : plan.flatten.Nodup
  wanted : ∀ s ∈ plan.flatten, s ∈ desired
  capacity : ∀ group ∈ plan, group.length ≤ symbolsPerSession
  stays : List.Forall₂ (fun before after => ∀ s ∈ before, s ∈ desired → s ∈ after)
    subscribed plan

variable {desired : List String} {subscribed plan : List (List String)} {symbol : String}

theorem PlanKept.length (h : PlanKept desired subscribed plan) :
    plan.length = subscribed.length :=
  h.stays.length_eq.symm

theorem stays_extends {later : List (List String)}
    (hstays : List.Forall₂ (fun before after => ∀ s ∈ before, s ∈ desired → s ∈ after)
      subscribed plan)
    (hextends : List.Forall₂ (fun before after => ∀ s ∈ before, s ∈ after) plan later) :
    List.Forall₂ (fun before after => ∀ s ∈ before, s ∈ desired → s ∈ after)
      subscribed later := by
  induction hstays generalizing later with
  | nil =>
    cases hextends
    exact .nil
  | cons hhead _ ih =>
    cases hextends with
    | cons hnext hrest =>
      exact .cons (fun s hs hwanted => hnext s (hhead s hs hwanted)) (ih hrest)

theorem PlanKept.placeNew (h : PlanKept desired subscribed plan) (hsymbol : symbol ∈ desired) :
    PlanKept desired subscribed (placeNew plan symbol) := by
  unfold NhPlug.placeNew
  split
  · exact h
  next hnew =>
    have hextends : List.Forall₂ (fun before after => ∀ s ∈ before, s ∈ desired → s ∈ after)
        subscribed (place plan symbol) := by
      exact stays_extends h.stays (place_extends plan symbol)
    rcases room_or_full plan with hroom | hfull
    · have hperm : (place plan symbol).flatten.Perm (symbol :: plan.flatten) :=
        place_of_room hroom
      refine ⟨?_, ?_, place_capacity h.capacity, hextends⟩
      · rw [hperm.nodup_iff]
        exact List.nodup_cons.mpr ⟨hnew, h.nodup⟩
      · intro s hs
        rcases List.mem_cons.mp (hperm.mem_iff.mp hs) with rfl | hold
        · exact hsymbol
        · exact h.wanted s hold
    · rw [place_of_full hfull]
      exact h

theorem PlanKept.mem_placeNew (h : PlanKept desired subscribed plan)
    (hbudget : desired.length ≤ plan.length * symbolsPerSession) (hsymbol : symbol ∈ desired) :
    symbol ∈ (NhPlug.placeNew plan symbol).flatten := by
  unfold NhPlug.placeNew
  split
  next hplaced => exact hplaced
  next hnew =>
    rcases room_or_full plan with hroom | hfull
    · exact (place_of_room hroom).mem_iff.mpr List.mem_cons_self
    · exfalso
      have hmore : (symbol :: plan.flatten).length ≤ desired.length := by
        apply List.Subperm.length_le
        apply List.subperm_of_subset
        · exact List.nodup_cons.mpr ⟨hnew, h.nodup⟩
        · intro s hs
          rcases List.mem_cons.mp hs with rfl | hold
          · exact hsymbol
          · exact h.wanted s hold
      have hcount := length_flatten_of_full hfull
      rw [List.length_cons] at hmore
      omega

theorem mem_placeNew_of_mem {s : String} (hs : s ∈ plan.flatten) :
    s ∈ (NhPlug.placeNew plan symbol).flatten := by
  unfold NhPlug.placeNew
  split
  · exact hs
  · rcases room_or_full plan with hroom | hfull
    · exact (place_of_room hroom).mem_iff.mpr (List.mem_cons_of_mem _ hs)
    · rw [place_of_full hfull]
      exact hs

theorem PlanKept.foldl (h : PlanKept desired subscribed plan) {symbols : List String}
    (hsymbols : ∀ s ∈ symbols, s ∈ desired) :
    PlanKept desired subscribed (symbols.foldl NhPlug.placeNew plan) ∧
      (desired.length ≤ plan.length * symbolsPerSession →
        ∀ s, s ∈ symbols ∨ s ∈ plan.flatten →
          s ∈ (symbols.foldl NhPlug.placeNew plan).flatten) := by
  induction symbols generalizing plan with
  | nil =>
    refine ⟨h, ?_⟩
    rintro _ s (hnone | hplaced)
    · cases hnone
    · exact hplaced
  | cons symbol rest ih =>
    have hsymbol := hsymbols symbol List.mem_cons_self
    have hnext := h.placeNew hsymbol
    obtain ⟨hkept, hall⟩ := ih hnext fun s hs => hsymbols s (List.mem_cons_of_mem _ hs)
    refine ⟨hkept, ?_⟩
    intro hbudget s hs
    apply hall
    · rw [hnext.length, ← h.length]
      exact hbudget
    · rcases hs with hlisted | hplaced
      · rcases List.mem_cons.mp hlisted with rfl | hrest
        · exact .inr (h.mem_placeNew hbudget hsymbol)
        · exact .inl hrest
      · exact .inr (mem_placeNew_of_mem hplaced)

variable (hnodup : subscribed.flatten.Nodup)
  (hcapacity : ∀ group ∈ subscribed, group.length ≤ symbolsPerSession)
include hnodup hcapacity

/-- What the sessions carry already, as far as it is wanted. -/
theorem planKept_start :
    PlanKept desired subscribed
      (subscribed.map fun group => group.filter fun s => s ∈ desired) := by
  have hflatten : (subscribed.map fun group => group.filter fun s => s ∈ desired).flatten =
      subscribed.flatten.filter fun s => s ∈ desired := by
    rw [List.filter_flatten]
  refine ⟨?_, ?_, ?_, ?_⟩
  · rw [hflatten]
    exact hnodup.filter _
  · intro s hs
    rw [hflatten, List.mem_filter] at hs
    exact of_decide_eq_true hs.2
  · intro group hgroup
    obtain ⟨old, hold, rfl⟩ := List.mem_map.mp hgroup
    exact (List.length_filter_le _ _).trans (hcapacity old hold)
  · rw [List.forall₂_map_right_iff]
    refine List.forall₂_same.mpr ?_
    intro group _ s hs hwanted
    exact List.mem_filter.mpr ⟨hs, decide_eq_true hwanted⟩

theorem planKept_assignment :
    PlanKept desired subscribed (assignment desired subscribed) :=
  ((planKept_start hnodup hcapacity).foldl fun _ hs => hs).1

theorem mem_assignment (hbudget : desired.length ≤ subscribed.length * symbolsPerSession)
    {s : String} (hs : s ∈ desired) : s ∈ (assignment desired subscribed).flatten := by
  have hstart : PlanKept desired subscribed _ := planKept_start hnodup hcapacity
  refine (hstart.foldl fun _ hs => hs).2 ?_ s (.inl hs)
  rw [hstart.length]
  exact hbudget

end KAssetTrader.NhPlug
