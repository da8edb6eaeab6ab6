import Mathlib.Tactic

/-!
Sessions with a database. A session works on its own view, commits it, or rolls
back to what is stored; a computation that raises keeps what it did to its view.
The weakest precondition of a computation is followed step by step, with one
rule for each operation. A process can stop after any commit, so what holds of
every commit holds of whatever such a process leaves stored.
-/

namespace KAssetTrader

universe u

/-- What a session sees: the stored database, its own view of it, and the
databases it has committed, oldest first. -/
structure SessionState (σ : Type u) where
  stored : σ
  view : σ
  commits : List σ := []

/-- A computation in a session, which returns a value or raises. -/
abbrev Session (ε σ : Type u) := EStateM ε (SessionState σ)

namespace Session

variable {ε σ α β : Type u}

def begin (db : σ) : SessionState σ := { stored := db, view := db }

def read : Session ε σ σ := fun s => .ok s.view s

def modify (f : σ → σ) : Session ε σ PUnit := fun s => .ok ⟨⟩ { s with view := f s.view }

def commit : Session ε σ PUnit := fun s =>
  .ok ⟨⟩ { stored := s.view, view := s.view, commits := s.commits ++ [s.view] }

def rollback : Session ε σ PUnit := fun s => .ok ⟨⟩ { s with view := s.stored }

def lift : Except ε α → Session ε σ α
  | .ok a => pure a
  | .error e => throw e

/-- What holds before a computation when `Q` holds after it returns and `E`
after it raises. -/
def wp (x : Session ε σ α) (Q : α → SessionState σ → Prop) (E : ε → SessionState σ → Prop)
    (s : SessionState σ) : Prop :=
  match x s with
  | .ok a t => Q a t
  | .error e t => E e t

section Rules

variable {Q Q' : α → SessionState σ → Prop} {E E' : ε → SessionState σ → Prop}
  {s t : SessionState σ} {x : Session ε σ α}

theorem wp_mono (h : wp x Q E s) (hok : ∀ a t, Q a t → Q' a t)
    (herror : ∀ e t, E e t → E' e t) : wp x Q' E' s := by
  unfold wp at h ⊢
  split at h
  · exact hok _ _ h
  · exact herror _ _ h

/-- Two facts about one computation hold together. -/
theorem wp_and (h : wp x Q E s) (h' : wp x Q' E' s) :
    wp x (fun a t => Q a t ∧ Q' a t) (fun e t => E e t ∧ E' e t) s := by
  unfold wp at h h' ⊢
  cases hrun : x s with
  | ok a t =>
    rw [hrun] at h h'
    exact ⟨h, h'⟩
  | error e t =>
    rw [hrun] at h h'
    exact ⟨h, h'⟩

@[simp] theorem wp_pure (a : α) : wp (pure a) Q E s ↔ Q a s := Iff.rfl

@[simp] theorem wp_throw (e : ε) : wp (throw e : Session ε σ α) Q E s ↔ E e s := Iff.rfl

@[simp] theorem wp_bind {Q : β → SessionState σ → Prop} (f : α → Session ε σ β) :
    wp (x >>= f) Q E s ↔ wp x (fun a => wp (f a) Q E) E s := by
  change (match EStateM.bind x f s with | .ok b t => Q b t | .error e t => E e t) ↔ _
  unfold EStateM.bind wp
  cases x s <;> rfl

@[simp] theorem wp_read {Q : σ → SessionState σ → Prop} :
    wp (read : Session ε σ σ) Q E s ↔ Q s.view s := Iff.rfl

@[simp] theorem wp_modify {Q : PUnit → SessionState σ → Prop} (f : σ → σ) :
    wp (modify f : Session ε σ PUnit) Q E s ↔ Q ⟨⟩ { s with view := f s.view } := Iff.rfl

@[simp] theorem wp_commit {Q : PUnit → SessionState σ → Prop} :
    wp (commit : Session ε σ PUnit) Q E s ↔
      Q ⟨⟩ { stored := s.view, view := s.view, commits := s.commits ++ [s.view] } := Iff.rfl

@[simp] theorem wp_rollback {Q : PUnit → SessionState σ → Prop} :
    wp (rollback : Session ε σ PUnit) Q E s ↔ Q ⟨⟩ { s with view := s.stored } := Iff.rfl

theorem wp_lift (r : Except ε α) :
    wp (lift r : Session ε σ α) Q E s ↔
      (∀ a, r = .ok a → Q a s) ∧ ∀ e, r = .error e → E e s := by
  cases r with
  | ok a => simp [lift]
  | error e => simp [lift]

theorem wp_lift_bind {r : Except ε β} {f : β → Session ε σ α}
    (hok : ∀ b, r = .ok b → wp (f b) Q E s) (herror : ∀ e, r = .error e → E e s) :
    wp (lift r >>= f) Q E s := by
  rw [wp_bind, wp_lift]
  exact ⟨hok, herror⟩

@[simp] theorem wp_tryCatch (handle : ε → Session ε σ α) :
    wp (tryCatch x handle) Q E s ↔ wp x Q (fun e => wp (handle e) Q E) s := by
  change (match EStateM.tryCatch x handle s with | .ok a t => Q a t | .error e t => E e t) ↔ _
  unfold EStateM.tryCatch wp
  cases x s <;> rfl

theorem wp_ite {c : Prop} [Decidable c] {x y : Session ε σ α}
    (htrue : c → wp x Q E s) (hfalse : ¬ c → wp y Q E s) :
    wp (if c then x else y) Q E s := by
  split
  · exact htrue ‹_›
  · exact hfalse ‹_›

theorem wp_ok (h : wp x Q E s) {a : α} (hrun : x s = .ok a t) : Q a t := by
  simpa only [wp, hrun] using h

theorem wp_error (h : wp x Q E s) {e : ε} (hrun : x s = .error e t) : E e t := by
  simpa only [wp, hrun] using h

theorem wp_of_error {e : ε} (hrun : x s = .error e t) (h : E e t) : wp x Q E s := by
  simpa only [wp, hrun] using h

end Rules

/-- The session after a computation, whether it returned or raised. -/
def finish (x : Session ε σ α) (s : SessionState σ) : SessionState σ :=
  match x s with
  | .ok _ t => t
  | .error _ t => t

def after (x : Session ε σ α) (db : σ) : σ := (x.finish (begin db)).stored

/-- The databases that a whole session commits, oldest first. -/
def committed (x : Session ε σ α) (db : σ) : List σ := (x.finish (begin db)).commits

variable {x : Session ε σ α} {s : SessionState σ} {db : σ}

theorem finish_of_wp {P : SessionState σ → Prop} (h : wp x (fun _ => P) (fun _ => P) s) :
    P (x.finish s) := by
  unfold wp at h
  unfold finish
  split at h <;> simp_all

end Session

end KAssetTrader
