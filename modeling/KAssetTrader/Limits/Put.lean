import KAssetTrader.Library.Transition
import KAssetTrader.Limits.RoundTrip

/-!
Requests that store the limits of one currency, any number of them at once. A request
reads the stored setting under the lock of its row, takes the budget of the other
currency from it, and writes the row back; without a row it inserts one, which fails
when another request has inserted one meanwhile. So the budget of each currency is
the one that was put last for it.
-/

namespace KAssetTrader.Limits

open Decimal
open Storage
open Checked Transition

section Model

variable (arithmetic : Arithmetic)

def storedLimits (row : Option Json) : Except String AITradingLimits :=
  match row with
  | none => AITradingLimits.make {}
  | some value => Prod.snd <$> decodeSetting arithmetic value

/-- The `replace` of `put_snapshot`: the budget of the other currency is the stored
one. -/
def replaceBudget (limits stored : AITradingLimits) : Except String AITradingLimits :=
  match limits.currency with
  | .krw => AITradingLimits.make
      (limits.arguments limits.operatingBudgetKrw stored.operatingBudgetUsd)
  | .usd => AITradingLimits.make
      (limits.arguments stored.operatingBudgetKrw limits.operatingBudgetUsd)

structure Writing where
  limits : AITradingLimits
  row : Option Json
  payload : Json

def planPut (row : Option Json) (mode : OperatingMode) (a : LimitsArguments) :
    Except String Writing := do
  let limits ← AITradingLimits.make a
  let stored ← storedLimits arithmetic row
  let replaced ← replaceBudget limits stored
  return ⟨limits, row, settingPayload mode replaced⟩

/-- The row of the setting, the request that holds its lock, the requests that have
read it, the row at first and the limits put since then, newest first. -/
structure World where
  row : Option Json
  lock : Option ℕ := none
  writing : ℕ → Option Writing := fun _ => none
  first : Option Json
  puts : List AITradingLimits := []

inductive Action where
  | read (i : ℕ) (mode : OperatingMode) (a : LimitsArguments)
  | commit (i : ℕ)
  | abort (i : ℕ)

/-- The request reads the row and locks it; it waits while another holds the lock. A
request that is refused, or that cannot read the stored setting, ends. -/
def World.read (w : World) (i : ℕ) (mode : OperatingMode) (a : LimitsArguments) : Option World :=
  match w.writing i with
  | some _ => none
  | none =>
    if w.row.isSome ∧ w.lock.isSome then none
    else
      match planPut arithmetic w.row mode a with
      | .error _ => some w
      | .ok writing => some
          { w with
            writing := Function.update w.writing i (some writing)
            lock := if w.row.isSome then some i else w.lock }

/-- The request writes the row that it holds, or inserts one; the insertion fails when
there is a row by now. -/
def World.commit (w : World) (i : ℕ) : Option World :=
  match w.writing i with
  | none => none
  | some writing =>
    let ended := { w with writing := Function.update w.writing i none }
    let stored := { ended with row := some writing.payload, puts := writing.limits :: w.puts }
    match writing.row with
    | some _ => some { stored with lock := none }
    | none =>
      match w.row with
      | none => some stored
      | some _ => some ended

/-- The request ends before it writes, and its lock is released. -/
def World.abort (w : World) (i : ℕ) : Option World :=
  match w.writing i with
  | none => none
  | some _ => some
      { w with
        writing := Function.update w.writing i none
        lock := if w.lock = some i then none else w.lock }

def World.step (w : World) : Action → Option World
  | .read i mode a => w.read arithmetic i mode a
  | .commit i => w.commit i
  | .abort i => w.abort i

/-- Any setting is stored, or none, and no request is on its way. -/
def Start (w : World) : Prop := ∃ row, w = { row, first := row }

end Model

variable {arithmetic : Arithmetic} {w w' : World} {i : ℕ}

def Puts (limits before after : AITradingLimits) : Prop :=
  after.operatingBudgetFor limits.currency = limits.operatingBudgetFor limits.currency ∧
    after.operatingBudgetFor limits.currency.other =
      before.operatingBudgetFor limits.currency.other

theorem replaceBudget_ok {limits stored : AITradingLimits} {preset : RiskPreset}
    (haccepted : Accepted limits preset) :
    ∃ replaced, replaceBudget limits stored = .ok replaced ∧ Puts limits stored replaced := by
  unfold replaceBudget
  cases hcurrency : limits.currency with
  | krw =>
    refine ⟨_, make_of_accepted haccepted ⟨limits.budgets_pos.1, stored.budgets_pos.2⟩, ?_⟩
    rw [Puts, hcurrency]
    exact ⟨rfl, rfl⟩
  | usd =>
    refine ⟨_, make_of_accepted haccepted ⟨stored.budgets_pos.1, limits.budgets_pos.2⟩, ?_⟩
    rw [Puts, hcurrency]
    exact ⟨rfl, rfl⟩

/-- What a request writes holds the limits that the row it read become by its put. -/
structure Planned (arithmetic : Arithmetic) (writing : Writing) : Prop where
  accepted : ∃ a, AITradingLimits.make a = .ok writing.limits
  plan : ∃ before after, storedLimits arithmetic writing.row = .ok before ∧
    storedLimits arithmetic (some writing.payload) = .ok after ∧
    Puts writing.limits before after

theorem planPut_planned {row : Option Json} {mode : OperatingMode} {a : LimitsArguments}
    {writing : Writing} (h : planPut arithmetic row mode a = .ok writing) :
    writing.row = row ∧ Planned arithmetic writing := by
  obtain ⟨limits, hlimits, h⟩ := bind_ok_iff.mp h
  obtain ⟨stored, hstored, h⟩ := bind_ok_iff.mp h
  obtain ⟨replaced, hreplaced, h⟩ := bind_ok_iff.mp h
  cases h
  obtain ⟨preset, haccepted⟩ := accepted_of_make hlimits
  obtain ⟨replaced', hreplaced', hputs⟩ := replaceBudget_ok haccepted
  cases hreplaced.symm.trans hreplaced'
  have hagain : ∃ preset, Accepted replaced preset := by
    unfold replaceBudget at hreplaced
    cases hcurrency : limits.currency with
    | krw =>
      rw [hcurrency] at hreplaced
      exact accepted_of_make hreplaced
    | usd =>
      rw [hcurrency] at hreplaced
      exact accepted_of_make hreplaced
  obtain ⟨preset', haccepted'⟩ := hagain
  refine ⟨rfl, ⟨a, hlimits⟩, stored, replaced, hstored, ?_, hputs⟩
  rw [storedLimits, decodeSetting_payload haccepted' mode]
  rfl

def lastBudget (puts : List AITradingLimits) (before : AITradingLimits) (currency : Currency) :
    Numeral :=
  ((puts.find? (·.currency = currency)).getD before).operatingBudgetFor currency

/-- What holds of the row and of the requests on their way. -/
structure World.Kept (arithmetic : Arithmetic) (w : World) : Prop where
  planned : ∀ i writing, w.writing i = some writing → Planned arithmetic writing
  locked : ∀ i writing value, w.writing i = some writing → writing.row = some value →
    w.row = some value ∧ w.lock = some i
  budgets : w.puts = [] ∧ w.row = w.first ∨
    ∃ before after, storedLimits arithmetic w.first = .ok before ∧
      storedLimits arithmetic w.row = .ok after ∧
      ∀ currency, after.operatingBudgetFor currency = lastBudget w.puts before currency

theorem Kept.start (h : Start w) : w.Kept arithmetic := by
  obtain ⟨row, rfl⟩ := h
  constructor
  · intro i writing h
    cases h
  · intro i writing value h
    cases h
  · exact .inl ⟨rfl, rfl⟩

theorem lastBudget_put {limits before stored after : AITradingLimits}
    {puts : List AITradingLimits} (hputs : Puts limits stored after)
    (hstored : ∀ currency, stored.operatingBudgetFor currency = lastBudget puts before currency)
    (currency : Currency) :
    after.operatingBudgetFor currency = lastBudget (limits :: puts) before currency := by
  by_cases hcurrency : limits.currency = currency
  · subst hcurrency
    rw [lastBudget, List.find?_cons_of_pos (by simp)]
    exact hputs.1
  · have hother : currency = limits.currency.other := by
      cases hown : limits.currency <;> cases currency <;> simp_all [Currency.other]
    rw [lastBudget, List.find?_cons_of_neg (by simpa using hcurrency)]
    have hlast := hputs.2.trans (hstored _)
    rw [← hother] at hlast
    exact hlast

theorem of_update {writing : ℕ → Option Writing} {next : Option Writing} {j : ℕ} {found : Writing}
    (h : Function.update writing i next j = some found) :
    (j = i ∧ next = some found) ∨ (j ≠ i ∧ writing j = some found) := by
  by_cases hj : j = i
  · subst hj
    rw [Function.update_self] at h
    exact .inl ⟨rfl, h⟩
  · rw [Function.update_of_ne hj] at h
    exact .inr ⟨hj, h⟩

/-- The requests on their way and the lock after a request ends, when those that hold
a row still find it. -/
theorem World.Kept.end (h : w.Kept arithmetic) {row : Option Json} {lock : Option ℕ}
    {puts : List AITradingLimits}
    (hlock : ∀ j writing value, j ≠ i → w.writing j = some writing → writing.row = some value →
      row = some value ∧ lock = some j)
    (hbudgets : puts = [] ∧ row = w.first ∨
      ∃ before after, storedLimits arithmetic w.first = .ok before ∧
        storedLimits arithmetic row = .ok after ∧
        ∀ currency, after.operatingBudgetFor currency = lastBudget puts before currency) :
    World.Kept arithmetic
      { w with row, lock, puts, writing := Function.update w.writing i none } := by
  constructor
  · intro j writing hj
    rcases of_update hj with ⟨-, hnone⟩ | ⟨-, hj⟩
    · cases hnone
    · exact h.planned j writing hj
  · intro j writing value hj hrow
    rcases of_update hj with ⟨-, hnone⟩ | ⟨hne, hj⟩
    · cases hnone
    · exact hlock j writing value hne hj hrow
  · exact hbudgets

theorem World.Kept.read (h : w.Kept arithmetic) {mode : OperatingMode} {a : LimitsArguments}
    (hstep : w.read arithmetic i mode a = some w') :
    w'.Kept arithmetic ∧ w'.row = w.row ∧ w'.puts = w.puts := by
  unfold World.read at hstep
  split at hstep
  · cases hstep
  next hidle =>
  split at hstep
  · cases hstep
  next hfree =>
  split at hstep
  · cases hstep
    exact ⟨h, rfl, rfl⟩
  next writing hplan =>
  cases hstep
  obtain ⟨hrow, hplanned⟩ := planPut_planned hplan
  refine ⟨?_, rfl, rfl⟩
  constructor
  · intro j found hj
    rcases of_update hj with ⟨-, hfound⟩ | ⟨-, hj⟩
    · cases hfound
      exact hplanned
    · exact h.planned j found hj
  · intro j found value hj hvalue
    rcases of_update hj with ⟨rfl, hfound⟩ | ⟨-, hj⟩
    · cases hfound
      rw [hrow] at hvalue
      refine ⟨hvalue, ?_⟩
      rw [hvalue]
      rfl
    · -- Another request holds the lock, so this one would have waited.
      obtain ⟨hvalue, hlock⟩ := h.locked j found value hj hvalue
      exact absurd ⟨by rw [hvalue]; rfl, by rw [hlock]; rfl⟩ hfree
  · exact h.budgets

/-- The put of a request is stored: the limits stored before become those stored after
it. -/
structure PutStored (arithmetic : Arithmetic) (w w' : World) (writing : Writing) : Prop where
  puts : w'.puts = writing.limits :: w.puts
  accepted : ∃ a, AITradingLimits.make a = .ok writing.limits
  stored : ∃ before after, storedLimits arithmetic w.row = .ok before ∧
    storedLimits arithmetic w'.row = .ok after ∧ Puts writing.limits before after

theorem World.Kept.commit (h : w.Kept arithmetic) (hstep : w.commit i = some w') :
    w'.Kept arithmetic ∧ (w'.row = w.row ∧ w'.puts = w.puts ∨
      ∃ writing, w.writing i = some writing ∧ PutStored arithmetic w w' writing) := by
  unfold World.commit at hstep
  split at hstep
  · cases hstep
  next writing hwriting =>
  obtain ⟨haccepted, stored, after, hstored, hafter, hputs⟩ := h.planned i writing hwriting
  -- The row is the one that the request has read.
  have hwrites (hrow : w.row = writing.row) : ∃ before after,
      storedLimits arithmetic w.first = .ok before ∧
        storedLimits arithmetic (some writing.payload) = .ok after ∧
        ∀ currency, after.operatingBudgetFor currency =
          lastBudget (writing.limits :: w.puts) before currency := by
    rw [← hrow] at hstored
    rcases h.budgets with ⟨hnone, hfirst⟩ | ⟨before, last, hbefore, hlast, hbudgets⟩
    · rw [hnone, ← hfirst]
      exact ⟨stored, after, hstored, hafter, lastBudget_put hputs fun _ => rfl⟩
    · cases hlast.symm.trans hstored
      exact ⟨before, after, hbefore, hafter, lastBudget_put hputs hbudgets⟩
  cases hread : writing.row with
  | some value =>
    simp only [hread] at hstep
    cases hstep
    obtain ⟨hrow, hlock⟩ := h.locked i writing value hwriting hread
    refine ⟨h.end ?_ (.inr (hwrites (hrow.trans hread.symm))), .inr ?_⟩
    · intro j other found hne hother hfound
      obtain ⟨-, hlock'⟩ := h.locked j other found hother hfound
      exact absurd (Option.some.inj (hlock'.symm.trans hlock)) hne
    · rw [hread, ← hrow] at hstored
      exact ⟨writing, hwriting, rfl, haccepted, stored, after, hstored, hafter, hputs⟩
  | none =>
    simp only [hread] at hstep
    cases hrow : w.row with
    | some value =>
      simp only [hrow] at hstep
      cases hstep
      refine ⟨?_, .inl ⟨rfl, rfl⟩⟩
      rw [← hrow]
      exact h.end (fun j other found _ => h.locked j other found) h.budgets
    | none =>
      simp only [hrow] at hstep
      cases hstep
      refine ⟨h.end ?_ (.inr (hwrites (hrow.trans hread.symm))), .inr ?_⟩
      · intro j other found _ hother hfound
        obtain ⟨hfound, -⟩ := h.locked j other found hother hfound
        rw [hrow] at hfound
        cases hfound
      · rw [hread, ← hrow] at hstored
        exact ⟨writing, hwriting, rfl, haccepted, stored, after, hstored, hafter, hputs⟩

theorem World.Kept.abort (h : w.Kept arithmetic) (hstep : w.abort i = some w') :
    w'.Kept arithmetic ∧ w'.row = w.row ∧ w'.puts = w.puts := by
  unfold World.abort at hstep
  split at hstep
  · cases hstep
  next writing hwriting =>
  cases hstep
  refine ⟨h.end ?_ h.budgets, rfl, rfl⟩
  intro j other found hne hother hfound
  obtain ⟨hrow, hlock⟩ := h.locked j other found hother hfound
  have hheld : ¬ w.lock = some i := by
    rw [hlock]
    exact fun heq => hne (Option.some.inj heq)
  rw [if_neg hheld]
  exact ⟨hrow, hlock⟩

/-- A step leaves the row alone, or it commits one request onto the row it has locked. -/
theorem World.Kept.step (h : w.Kept arithmetic) {action : Action}
    (hstep : w.step arithmetic action = some w') :
    w'.Kept arithmetic ∧ (w'.row = w.row ∧ w'.puts = w.puts ∨
      ∃ i writing, action = .commit i ∧ w.writing i = some writing ∧
        PutStored arithmetic w w' writing) := by
  cases action with
  | read i mode a =>
    obtain ⟨hkept, hsame⟩ := h.read hstep
    exact ⟨hkept, .inl hsame⟩
  | commit i =>
    obtain ⟨hkept, hsame | ⟨writing, hwriting, hput⟩⟩ := h.commit hstep
    · exact ⟨hkept, .inl hsame⟩
    · exact ⟨hkept, .inr ⟨i, writing, rfl, hwriting, hput⟩⟩
  | abort i =>
    obtain ⟨hkept, hsame⟩ := h.abort hstep
    exact ⟨hkept, .inl hsame⟩

/-- The row and the requests agree in every reachable state. -/
theorem kept_of_reachable (h : Reachable Start (World.step arithmetic) w) : w.Kept arithmetic :=
  invariant (fun _ hs => Kept.start hs) (fun _ _ _ hk _ hst => (hk.step hst).1) h

/-- Limits that the constructor accepts are read back from what is stored of them.
Whatever is stored at first, and in whatever order any number of requests read and
write, a step leaves the stored limits alone or is a put that keeps the budget of the
other currency; the budget of each currency is the one that was put last for it. -/
theorem limits_stored_and_kept (arithmetic : Arithmetic) :
    (∀ a limits mode, AITradingLimits.make a = .ok limits →
      decodeSetting arithmetic (settingPayload mode limits) = .ok (mode, limits)) ∧
    ∀ w, Reachable Start (World.step arithmetic) w →
      (∀ action w', w.step arithmetic action = some w' → w'.row = w.row ∧ w'.puts = w.puts ∨
        ∃ i writing, action = .commit i ∧ w.writing i = some writing ∧
          PutStored arithmetic w w' writing) ∧
      (w.puts = [] ∧ w.row = w.first ∨
        ∃ before after, storedLimits arithmetic w.first = .ok before ∧
          storedLimits arithmetic w.row = .ok after ∧
          ∀ currency, after.operatingBudgetFor currency = lastBudget w.puts before currency) := by
  constructor
  · intro a limits mode h
    obtain ⟨preset, haccepted⟩ := accepted_of_make h
    exact decodeSetting_payload haccepted mode
  · intro w h
    have hkept := kept_of_reachable h
    exact ⟨fun action w' hstep => (hkept.step hstep).2, hkept.budgets⟩

def working : Arithmetic where
  add a b := normalize 28 (a.value + b.value)
  sub a b := normalize 28 (a.value - b.value)
  mul a b := normalize 28 (a.value * b.value)
  div a b := normalize 28 (a.value / b.value)
  abs a := normalize 28 |a.value|

def dollars : LimitsArguments :=
  { operatingBudgetUsd := .finite (literal 20000 0), currency := "USD" }

def won : LimitsArguments :=
  { operatingBudgetKrw := .finite (literal 9000000 0), customMaxBuysPerDay := .int 7 }

/-- Two requests read before there is a row; the one that comes second to insert it
is made again. -/
def twoRequests : List Action :=
  [.read 0 .approval dollars, .read 1 .autoPaper won, .commit 0, .commit 1,
    .read 1 .autoPaper won, .commit 1]

/-- Two requests, each with a currency of its own. -/
theorem limits_stored_and_kept_two :
    (∃ limits, AITradingLimits.make won = .ok limits ∧
      decodeSetting working (settingPayload .autoPaper limits) = .ok (.autoPaper, limits)) ∧
    ∃ w, Transition.run (World.step working) { row := none, first := none } twoRequests = some w ∧
      w.puts.length = 2 ∧
      ∃ before after, storedLimits working none = .ok before ∧
        storedLimits working w.row = .ok after ∧
        ∀ currency, after.operatingBudgetFor currency = lastBudget w.puts before currency := by
  constructor
  · obtain ⟨limits, hlimits, -⟩ := exists_ok_of_check (P := fun _ : AITradingLimits => True)
      (show ((AITradingLimits.make won).toOption.any _) = true by decide +kernel)
    exact ⟨limits, hlimits, (limits_stored_and_kept working).1 won limits .autoPaper hlimits⟩
  · obtain ⟨w, hw, hlength, hfirst⟩ :
        ∃ w, Transition.run (World.step working) { row := none, first := none } twoRequests =
          some w ∧ w.puts.length = 2 ∧ w.first = none :=
      exists_run (by decide +kernel)
    have hreachable : Reachable Start (World.step working) w :=
      reachable_of_run ⟨none, rfl⟩ hw
    refine ⟨w, hw, hlength, ?_⟩
    rcases ((limits_stored_and_kept working).2 w hreachable).2 with ⟨hnone, -⟩ | hbudgets
    · rw [hnone] at hlength
      cases hlength
    · rw [hfirst] at hbudgets
      exact hbudgets

end KAssetTrader.Limits
