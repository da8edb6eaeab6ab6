import KAssetTrader.Library.Decimal
import KAssetTrader.Library.Transition

/-!
The shared cache of sellable quantities. A caller reads the generations, asks the broker, and
puts what it got while the generations are as it read them; an invalidation moves a generation
on and deletes the value, so a put after it finds another generation. The keys of the
generations carry the prefix of the cache: `clear` deletes them too, and the count starts over.
-/

namespace KAssetTrader.Sellable

open Transition

/-- A symbol as `strip().upper()` leaves it. -/
abbrev Symbol := String

/-- A caller between the commands of one `read_many` and of the `put_many` that follow it. -/
inductive CallerPhase where
  | idle
  | done
  | fetched
  | watching (values : List (Symbol × Decimal)) (changed : Bool)
  | queued (watched : List Symbol) (eligible : List (Symbol × Decimal)) (changed : Bool)

/-- A caller with the generations it read. `invalidated` remembers the symbols that an
invalidation has named since. -/
structure Caller where
  phase : CallerPhase := .idle
  expected : Symbol → ℕ := fun _ => 0
  invalidated : Symbol → Bool := fun _ => false

/-- The keys of the cache, each value with the caller that put it; a generation without a key
counts as zero. -/
structure SellableWorld where
  values : Symbol → Option (Decimal × ℕ) := fun _ => none
  generations : Symbol → ℕ := fun _ => 0
  callers : ℕ → Caller := fun _ => {}

inductive SellableAction where
  /-- The `MGET` of `read_many`, which may fail. -/
  | readMany (caller : ℕ) (symbols : List Symbol) (answered : Bool)
  | watch (caller : ℕ) (values : List (Symbol × Decimal))
  /-- The `MGET` of `put_many`. -/
  | compare (caller : ℕ)
  | exec (caller : ℕ)
  /-- A command of `put_many` fails, and its connection goes back to the pool. -/
  | fail (caller : ℕ)
  | finish (caller : ℕ)
  | invalidateMany (symbols : List Symbol)
  /-- The `DEL` of `clear`, of any keys that its scan has found. -/
  | clear (symbols generations : List Symbol)
  | expire (symbol : Symbol)

def CallerPhase.touch (keys : List Symbol) : CallerPhase → CallerPhase
  | .watching values changed => .watching values (changed || values.any (·.1 ∈ keys))
  | .queued watched eligible changed =>
    .queued watched eligible (changed || watched.any (· ∈ keys))
  | phase => phase

def CallerPhase.active : CallerPhase → Bool
  | .idle | .done => false
  | _ => true

namespace SellableWorld

variable (w : SellableWorld)

def setCaller (i : ℕ) (caller : Caller) : SellableWorld :=
  { w with callers := Function.update w.callers i caller }

def setPhase (i : ℕ) (phase : CallerPhase) : SellableWorld :=
  w.setCaller i { w.callers i with phase }

def put (i : ℕ) (entries : List (Symbol × Decimal)) : SellableWorld :=
  { w with
    values := fun s => entries.foldl (fun found p => if p.1 = s then some (p.2, i) else found)
      (w.values s) }

def invalidateMany (symbols : List Symbol) : SellableWorld where
  values s := if s ∈ symbols ∧ s ≠ "" then none else w.values s
  generations s := if s ∈ symbols ∧ s ≠ "" then w.generations s + 1 else w.generations s
  callers i :=
    { w.callers i with
      phase := (w.callers i).phase.touch (symbols.filter (· ≠ ""))
      invalidated := fun s => (w.callers i).invalidated s || decide (s ∈ symbols) }

def clear (symbols generations : List Symbol) : SellableWorld where
  values s := if s ∈ symbols then none else w.values s
  generations s := if s ∈ generations then 0 else w.generations s
  callers i :=
    { w.callers i with
      phase := (w.callers i).phase.touch (generations.filter fun s => w.generations s ≠ 0) }

def step : SellableAction → Option SellableWorld
  | .readMany i symbols answered =>
    match (w.callers i).phase with
    | .idle => some (w.setCaller i
        { phase := .fetched
          expected := fun s => if answered ∧ s ∈ symbols then w.generations s else 0 })
    | _ => none
  | .watch i values =>
    match (w.callers i).phase with
    | .fetched => some (w.setPhase i (.watching values false))
    | _ => none
  | .compare i =>
    match (w.callers i).phase with
    | .watching values changed => some (w.setPhase i (.queued (values.map (·.1))
        (values.filter fun p => w.generations p.1 = (w.callers i).expected p.1) changed))
    | _ => none
  | .exec i =>
    match (w.callers i).phase with
    | .queued _ eligible changed =>
      some ((if changed then w else w.put i eligible).setPhase i .fetched)
    | _ => none
  | .fail i => if (w.callers i).phase.active then some (w.setPhase i .fetched) else none
  | .finish i => if (w.callers i).phase.active then some (w.setPhase i .done) else none
  | .invalidateMany symbols => some (w.invalidateMany symbols)
  | .clear symbols generations => some (w.clear symbols generations)
  | .expire symbol => some { w with values := Function.update w.values symbol none }

/-- No value that can be read was fetched before an invalidation of its symbol. -/
def Fresh : Prop :=
  ∀ symbol value i, w.values symbol = some (value, i) → (w.callers i).invalidated symbol = false

/-- No blank symbol is invalidated, and no generation is deleted that a caller with a put to
come has read as a positive one, or whose symbol was invalidated since it read. -/
def Spares : SellableAction → Prop
  | .invalidateMany symbols => "" ∉ symbols
  | .clear _ generations => ∀ symbol ∈ generations, ∀ i, (w.callers i).phase.active = true →
      (w.callers i).expected symbol = 0 ∧ (w.callers i).invalidated symbol = false
  | _ => True

/-- A caller knows no more of the generations than is true, and what it put and what it is
about to put has not been invalidated since it read. -/
structure CallerKept (values : Symbol → Option (Decimal × ℕ)) (generations : Symbol → ℕ) (i : ℕ)
    (caller : Caller) : Prop where
  fresh : ∀ symbol value, values symbol = some (value, i) → caller.invalidated symbol = false
  expected : caller.phase.active = true → ∀ symbol, caller.expected symbol ≤ generations symbol ∧
    (caller.invalidated symbol = true → caller.expected symbol < generations symbol)
  eligible : ∀ watched eligible, caller.phase = .queued watched eligible false →
    ∀ p ∈ eligible, p.1 ∈ watched ∧ generations p.1 = caller.expected p.1

def Kept (w : SellableWorld) : Prop := ∀ i, CallerKept w.values w.generations i (w.callers i)

variable {w} {i : ℕ} {caller : Caller} {phase : CallerPhase} {keys watched : List Symbol}
  {eligible : List (Symbol × Decimal)} {symbols generations : List Symbol}

theorem active_touch : (phase.touch keys).active = phase.active := by cases phase <;> rfl

/-- A put whose watched keys are unchanged was queued before, and none of its keys written. -/
theorem of_touch (h : phase.touch keys = .queued watched eligible false) :
    phase = .queued watched eligible false ∧ ∀ symbol ∈ watched, symbol ∉ keys := by
  cases phase with
  | queued watched' eligible' changed =>
    obtain ⟨rfl, rfl, hfalse⟩ := CallerPhase.queued.inj h
    obtain ⟨rfl, hkeys⟩ := Bool.or_eq_false_iff.mp hfalse
    exact ⟨rfl, by simpa using hkeys⟩
  | idle => cases h
  | done => cases h
  | fetched => cases h
  | watching values changed => cases h

section

variable (h : w.Kept)
include h

theorem Kept.setCaller (hcaller : CallerKept w.values w.generations i caller) :
    (w.setCaller i caller).Kept := by
  intro j
  by_cases hj : j = i
  · subst hj
    simpa only [SellableWorld.setCaller, Function.update_self] using hcaller
  · simpa only [SellableWorld.setCaller, Function.update_of_ne hj] using h j

theorem Kept.setPhase (hactive : (w.callers i).phase.active = true)
    (hqueued : ∀ watched eligible, phase = .queued watched eligible false →
      ∀ p ∈ eligible, p.1 ∈ watched ∧ w.generations p.1 = (w.callers i).expected p.1) :
    (w.setPhase i phase).Kept :=
  h.setCaller ⟨(h i).fresh, fun _ => (h i).expected hactive, hqueued⟩

theorem Kept.readMany (symbols : List Symbol) (answered : Bool) :
    (w.setCaller i
      { phase := .fetched
        expected := fun s => if answered ∧ s ∈ symbols then w.generations s else 0 }).Kept := by
  refine h.setCaller ⟨fun _ _ _ => rfl, fun _ symbol => ⟨?_, nofun⟩, nofun⟩
  dsimp only
  split
  · exact le_rfl
  · exact Nat.zero_le _

/-- A put whose watched keys did not change writes what no invalidation has named since its
read. -/
theorem Kept.put (hphase : (w.callers i).phase = .queued watched eligible false) :
    (w.put i eligible).Kept := by
  refine fun j => ⟨fun symbol value hvalue => ?_, (h j).expected, (h j).eligible⟩
  have hwritten : w.values symbol = some (value, j) ∨ j = i ∧ symbol ∈ eligible.map (·.1) := by
    unfold SellableWorld.put at hvalue
    dsimp only at hvalue
    clear hphase
    generalize w.values symbol = start at hvalue ⊢
    induction eligible generalizing start with
    | nil => exact .inl hvalue
    | cons p rest ih =>
      rcases ih _ hvalue with hstart | ⟨hi, hmem⟩
      · dsimp only at hstart
        split at hstart
        next hsame =>
          cases hstart
          exact .inr ⟨rfl, hsame ▸ List.mem_cons_self⟩
        · exact .inl hstart
      · exact .inr ⟨hi, List.mem_cons_of_mem _ hmem⟩
  rcases hwritten with hold | ⟨rfl, hmem⟩
  · exact (h j).fresh symbol value hold
  · obtain ⟨p, hp, rfl⟩ := List.mem_map.mp hmem
    obtain ⟨-, hsame⟩ := (h j).eligible _ _ hphase p hp
    have hbehind := ((h j).expected (by rw [hphase]; rfl) p.1).2
    exact Bool.eq_false_iff.mpr fun hnamed => (hbehind hnamed).ne hsame.symm

theorem Kept.invalidateMany (hblank : "" ∉ symbols) : (w.invalidateMany symbols).Kept := by
  have hnamed : ∀ s ∈ symbols, s ≠ "" := fun s hs hs' => hblank (hs' ▸ hs)
  refine fun i => ⟨fun symbol value hvalue => ?_, fun hactive symbol => ?_,
    fun watched eligible hphase p hp => ?_⟩
  · simp only [SellableWorld.invalidateMany] at hvalue ⊢
    split at hvalue
    · cases hvalue
    next hnot =>
      have hother : symbol ∉ symbols := fun hmem => hnot ⟨hmem, hnamed symbol hmem⟩
      simp [(h i).fresh symbol value hvalue, hother]
  · obtain ⟨hle, hlt⟩ := (h i).expected (active_touch ▸ hactive) symbol
    simp only [SellableWorld.invalidateMany]
    split
    · exact ⟨hle.trans (Nat.le_succ _), fun _ => Nat.lt_succ_of_le hle⟩
    next hnot =>
      have hother : symbol ∉ symbols := fun hmem => hnot ⟨hmem, hnamed symbol hmem⟩
      simpa [hother] using ⟨hle, hlt⟩
  · obtain ⟨hqueued, huntouched⟩ := of_touch hphase
    obtain ⟨hmem, hsame⟩ := (h i).eligible watched eligible hqueued p hp
    refine ⟨hmem, (if_neg fun hin => ?_).trans hsame⟩
    exact huntouched p.1 hmem (List.mem_filter.mpr ⟨hin.1, decide_eq_true hin.2⟩)

theorem Kept.clear (hspares : w.Spares (.clear symbols generations)) :
    (w.clear symbols generations).Kept := by
  refine fun i => ⟨fun symbol value hvalue => ?_, fun hactive symbol => ?_,
    fun watched eligible hphase p hp => ?_⟩
  · simp only [SellableWorld.clear] at hvalue ⊢
    split at hvalue
    · cases hvalue
    · exact (h i).fresh symbol value hvalue
  · have hbefore : (w.callers i).phase.active = true := active_touch ▸ hactive
    simp only [SellableWorld.clear]
    split
    next hdeleted =>
      obtain ⟨hzero, hnamed⟩ := hspares symbol hdeleted i hbefore
      simp [hzero, hnamed]
    · exact (h i).expected hbefore symbol
  · obtain ⟨hqueued, huntouched⟩ := of_touch hphase
    obtain ⟨hmem, hsame⟩ := (h i).eligible watched eligible hqueued p hp
    refine ⟨hmem, ?_⟩
    simp only [SellableWorld.clear]
    split
    next hdeleted =>
      -- Only a key that exists is written when it is deleted.
      have hzero : w.generations p.1 = 0 := by
        by_contra hexists
        exact huntouched p.1 hmem (List.mem_filter.mpr ⟨hdeleted, decide_eq_true hexists⟩)
      rw [← hsame, hzero]
    · exact hsame

/-- A call that spares what others have read keeps each of them from putting a stale value. -/
theorem Kept.step {action : SellableAction} {w' : SellableWorld} (hspares : w.Spares action)
    (hstep : w.step action = some w') : w'.Kept := by
  cases action with
  | readMany i symbols answered =>
    simp only [SellableWorld.step] at hstep
    split at hstep
    · cases hstep
      exact h.readMany symbols answered
    · cases hstep
  | watch i values =>
    simp only [SellableWorld.step] at hstep
    split at hstep
    next hphase =>
      cases hstep
      exact h.setPhase (by rw [hphase]; rfl) nofun
    · cases hstep
  | compare i =>
    simp only [SellableWorld.step] at hstep
    split at hstep
    next values changed hphase =>
      cases hstep
      refine h.setPhase (by rw [hphase]; rfl) fun watched eligible hqueued p hp => ?_
      obtain ⟨rfl, rfl, -⟩ := CallerPhase.queued.inj hqueued
      obtain ⟨hmem, hsame⟩ := List.mem_filter.mp hp
      exact ⟨List.mem_map_of_mem hmem, of_decide_eq_true hsame⟩
    · cases hstep
  | exec i =>
    simp only [SellableWorld.step] at hstep
    split at hstep
    next watched eligible changed hphase =>
      cases hstep
      have hactive : (w.callers i).phase.active = true := by rw [hphase]; rfl
      cases changed with
      | true => exact h.setPhase hactive nofun
      | false => exact (h.put hphase).setPhase hactive nofun
    · cases hstep
  | fail i =>
    obtain ⟨hactive, rfl⟩ := of_guard hstep
    exact h.setPhase hactive nofun
  | finish i =>
    obtain ⟨hactive, rfl⟩ := of_guard hstep
    exact h.setPhase hactive nofun
  | invalidateMany symbols =>
    cases hstep
    exact h.invalidateMany hspares
  | clear symbols generations =>
    cases hstep
    exact h.clear hspares
  | expire symbol =>
    cases hstep
    refine fun i => ⟨fun found value hvalue => ?_, (h i).expected, (h i).eligible⟩
    refine (h i).fresh found value ?_
    dsimp only at hvalue
    by_cases hsame : found = symbol
    · subst hsame
      rw [Function.update_self] at hvalue
      cases hvalue
    · rwa [Function.update_of_ne hsame] at hvalue

end

end SellableWorld

/-- In every run that spares the generations in use, no value that was fetched before an
invalidation of its symbol can be read. -/
theorem no_stale_quantity {w : SellableWorld}
    (h : ReachableVia (· = {}) SellableWorld.step SellableWorld.Spares w) : w.Fresh := by
  have hstart : ∀ w : SellableWorld, w = {} → w.Kept := by
    rintro _ rfl
    exact fun _ => ⟨nofun, nofun, nofun⟩
  have hkept := invariant hstart (fun _ _ _ hkept => hkept.step) h
  exact fun symbol value i hvalue => (hkept i).fresh symbol value hvalue

/-- A caller reads, these commands follow, and the caller puts. -/
def putAfter (i : ℕ) (between : List SellableAction) : List SellableAction :=
  .readMany i ["005930"] true :: between ++ [.watch i [("005930", 7)], .compare i, .exec i]

/-- A quantity that is put by its leader. -/
theorem no_stale_quantity_put : ∃ w : SellableWorld,
    w.values "005930" = some (7, 1) ∧ w.Fresh := by
  obtain ⟨w, hrun, hvalue⟩ := (Option.any_eq_true _ _).mp (show
    (run SellableWorld.step {} (.invalidateMany ["005930"] :: putAfter 1 [])).any
      (fun w => w.values "005930" == some (7, 1)) = true by decide +kernel)
  have halong : Along SellableWorld.step SellableWorld.Spares {}
      (.invalidateMany ["005930"] :: putAfter 1 []) :=
    ⟨by simp [SellableWorld.Spares], fun _ _ => ⟨trivial, fun _ _ => ⟨trivial, fun _ _ =>
      ⟨trivial, fun _ _ => ⟨trivial, fun _ _ => trivial⟩⟩⟩⟩⟩
  exact ⟨w, eq_of_beq hvalue, no_stale_quantity (.run (s := {}) (.start rfl) halong hrun)⟩

/-- A caller reads generation 0, the symbol is invalidated, the cache is cleared, and the put
finds generation 0 again. -/
theorem cleared_generation_starts_over :
    ¬ ∀ w, Reachable (· = {}) SellableWorld.step w → w.Fresh := by
  intro hall
  obtain ⟨w, hrun, hstale⟩ := (Option.any_eq_true _ _).mp (show
    (run SellableWorld.step {}
      (putAfter 0 [.invalidateMany ["005930"], .clear [] ["005930"]])).any
      (fun w => w.values "005930" == some (7, 0) && (w.callers 0).invalidated "005930") = true by
    decide +kernel)
  obtain ⟨hvalue, hnamed⟩ := Bool.and_eq_true_iff.mp hstale
  have hfresh := hall w (reachable_of_run rfl hrun) "005930" 7 0 (eq_of_beq hvalue)
  rw [hfresh] at hnamed
  cases hnamed

end KAssetTrader.Sellable
