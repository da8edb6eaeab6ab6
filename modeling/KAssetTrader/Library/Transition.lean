import Mathlib.Tactic

/-!
Guarded transition systems. A step function returns `none` when the action is
not enabled, so one definition serves replaying a concrete run and proving an
invariant of every run. Runs may be restricted to steps that meet a condition;
the unrestricted runs are those of the condition that always holds.
-/

namespace KAssetTrader.Transition

variable {σ α : Type*}

/-- States reached from a start state by enabled steps that all meet `ok`. -/
inductive ReachableVia (start : σ → Prop) (step : σ → α → Option σ)
    (ok : σ → α → Prop) : σ → Prop
  | start {s : σ} : start s → ReachableVia start step ok s
  | step {s t : σ} {a : α} : ReachableVia start step ok s → ok s a →
      step s a = some t → ReachableVia start step ok t

def always : σ → α → Prop := fun _ _ => True

abbrev Reachable (start : σ → Prop) (step : σ → α → Option σ) : σ → Prop :=
  ReachableVia start step always

/-- Perform the actions in order; `none` when one of them is not enabled. -/
def run (step : σ → α → Option σ) : σ → List α → Option σ
  | s, [] => some s
  | s, a :: rest => (step s a).bind (fun t => run step t rest)

/-- Every step along the run of these actions meets `ok`. -/
def Along (step : σ → α → Option σ) (ok : σ → α → Prop) : σ → List α → Prop
  | _, [] => True
  | s, a :: rest => ok s a ∧ ∀ t, step s a = some t → Along step ok t rest

variable {start : σ → Prop} {step : σ → α → Option σ} {ok : σ → α → Prop}

theorem of_guard {p : Prop} [Decidable p] {s t : σ} (h : (if p then some s else none) = some t) :
    p ∧ s = t := by
  split at h
  next hp => exact ⟨hp, Option.some.inj h⟩
  · cases h

/-- What holds at the start and is preserved by every step that meets the
condition holds in every state reached by such steps. -/
theorem invariant {P : σ → Prop} (hstart : ∀ s, start s → P s)
    (hstep : ∀ s a t, P s → ok s a → step s a = some t → P t)
    {s : σ} (h : ReachableVia start step ok s) : P s := by
  induction h with
  | start hs => exact hstart _ hs
  | step _ hok hst ih => exact hstep _ _ _ ih hok hst

/-- An invariant of the steps that `ok` admits holds in every state they reach. -/
theorem invariant_of_reachable {P : σ → Prop} (hstart : ∀ s, start s → P s)
    (hstep : ∀ s a t, ReachableVia start step ok s → P s → ok s a →
      step s a = some t → P t)
    {s : σ} (h : ReachableVia start step ok s) : P s := by
  induction h with
  | start hs => exact hstart _ hs
  | step hr hok hst ih => exact hstep _ _ _ hr ih hok hst

theorem ReachableVia.mono {ok' : σ → α → Prop} (hok : ∀ s a, ok s a → ok' s a)
    {s : σ} (h : ReachableVia start step ok s) : ReachableVia start step ok' s := by
  induction h with
  | start hs => exact .start hs
  | step _ ho hst ih => exact .step ih (hok _ _ ho) hst

/-- A run from a reachable state ends in one. -/
theorem ReachableVia.run {s t : σ} {actions : List α}
    (h : ReachableVia start step ok s) (halong : Along step ok s actions)
    (hrun : Transition.run step s actions = some t) : ReachableVia start step ok t := by
  induction actions generalizing s with
  | nil =>
    obtain rfl : s = t := by simpa [Transition.run] using hrun
    exact h
  | cons a rest ih =>
    obtain ⟨hok, hrest⟩ := halong
    obtain ⟨u, hu, hurun⟩ := Option.bind_eq_some_iff.mp hrun
    exact ih (.step h hok hu) (hrest u hu) hurun

theorem along_congr {ok' : σ → α → Prop} (h : ∀ s a, ok s a ↔ ok' s a) (s : σ)
    (actions : List α) : Along step ok s actions ↔ Along step ok' s actions := by
  induction actions generalizing s with
  | nil => exact Iff.rfl
  | cons a rest ih =>
    exact and_congr (h s a) (forall_congr' fun t => imp_congr_right fun _ => ih t)

theorem along_always (s : σ) (actions : List α) : Along step always s actions := by
  induction actions generalizing s with
  | nil => trivial
  | cons a rest ih => exact ⟨trivial, fun t _ => ih t⟩

/-- A run from a start ends in a reachable state. -/
theorem reachable_of_run {s t : σ} {actions : List α} (hs : start s)
    (hrun : Transition.run step s actions = some t) : Reachable start step t :=
  (ReachableVia.start hs).run (along_always s actions) hrun

/-- A property decided of the state a replay ends in. -/
theorem exists_run {x : Option σ} {P : σ → Prop} [DecidablePred P]
    (h : (x.any fun s => decide (P s)) = true) : ∃ s, x = some s ∧ P s := by
  obtain ⟨s, hs, hP⟩ := (Option.any_eq_true _ _).mp h
  exact ⟨s, hs, of_decide_eq_true hP⟩

/-- Along a replay, checking the condition at each step is decidable whenever
the condition is. -/
instance decidableAlong [∀ s a, Decidable (ok s a)] (s : σ) :
    (actions : List α) → Decidable (Along step ok s actions)
  | [] => isTrue trivial
  | a :: rest =>
    match hst : step s a with
    | none =>
      decidable_of_iff (ok s a) (by
        simp only [Along, hst]
        exact ⟨fun h => ⟨h, fun t ht => by cases ht⟩, And.left⟩)
    | some t =>
      have := decidableAlong t rest
      decidable_of_iff (ok s a ∧ Along step ok t rest) (by
        simp only [Along, hst, Option.some.injEq]
        exact ⟨fun h => ⟨h.1, fun _ ht => ht ▸ h.2⟩, fun h => ⟨h.1, h.2 t rfl⟩⟩)

end KAssetTrader.Transition
