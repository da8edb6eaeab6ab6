import KAssetTrader.Backtest.Agreement
import KAssetTrader.Backtest.Queues

/-!
Two runs over bars that agree up to an instant. Their loops go through the same
days up to that instant and pass the same state after them; the days that
follow add to that state only what they date themselves, and resolve signals
that are still pending.
-/

namespace KAssetTrader.Backtest

open PortfolioBacktest Position Sizing Checked

/-- What a signal says when it is generated, less its reason. -/
def PortfolioSignal.decision (signal : PortfolioSignal) :
    CandidateKey × SignalAction × Instant × ℕ × Option ℤ × Option MarketRegime :=
  (signal.key, signal.action, signal.signalAt, signal.observedBarCount, signal.rankPosition,
    signal.regime)

def PortfolioSignal.ResolvedBy (T : Instant) (signal : PortfolioSignal) : Prop :=
  ∃ executionAt, signal.executionAt = some executionAt ∧ executionAt ≤ T

/-- The same signal in two runs, up to a resolution after the instant. Only a
dropped order replaces the reason. -/
structure PortfolioSignal.SameUpTo (T : Instant) (a b : PortfolioSignal) : Prop where
  decision : a.decision = b.decision
  resolved : a.ResolvedBy T ∨ b.ResolvedBy T → a = b
  reason : a.status ≠ .skipped → b.status ≠ .skipped → a.reason = b.reason

structure PortfolioSignal.Settles (T : Instant) (old new : PortfolioSignal) : Prop where
  decision : new.decision = old.decision
  later : new = old ∨ old.status = .pending ∧
    (new.status = .executed ∧ new.reason = old.reason ∨ new.status = .skipped) ∧
    ∃ executionAt, new.executionAt = some executionAt ∧ T < executionAt

/-- The second state has been reached from the first one after the instant. -/
structure RunState.ContinuesTo (T : Instant) (s₀ s : RunState) : Prop where
  entries : s.entries.filter (·.entryAt ≤ T) = s₀.entries.filter (·.entryAt ≤ T)
  exits : s.exits.filter (·.exitAt ≤ T) = s₀.exits.filter (·.exitAt ≤ T)
  equity : s.equityCurve.filter (·.timestamp ≤ T) = s₀.equityCurve.filter (·.timestamp ≤ T)
  signals : ∃ kept later, s.signals = kept ++ later ∧
    List.Forall₂ (PortfolioSignal.Settles T) s₀.signals kept ∧
    ∀ signal ∈ later, T < signal.signalAt

section Lists

variable {α β : Type*} {R : α → β → Prop} {l : List α} {k : List β} {i : ℕ}

theorem forall₂_getElem? (h : List.Forall₂ R l k) {b : β} (hb : k[i]? = some b) :
    ∃ a, l[i]? = some a ∧ R a b := by
  induction h generalizing i with
  | nil => cases hb
  | cons hab _ ih =>
    cases i with
    | zero =>
      cases hb
      exact ⟨_, rfl, hab⟩
    | succ i => exact ih hb

theorem forall₂_set (h : List.Forall₂ R l k) {a : α} {b : β} (ha : l[i]? = some a) (hab : R a b) :
    List.Forall₂ R l (k.set i b) := by
  induction h generalizing i with
  | nil => exact .nil
  | cons hcd hrest ih =>
    cases i with
    | zero =>
      cases ha
      exact .cons hab hrest
    | succ i => exact .cons hcd (ih ha)

theorem filter_append_later {p : α → Bool} {later : List α} (h : ∀ a ∈ later, p a = false) :
    (l ++ later).filter p = l.filter p := by
  have hnone : later.filter p = [] := List.filter_eq_nil_iff.mpr fun a ha => by simp [h a ha]
  rw [List.filter_append, hnone, List.append_nil]

end Lists

variable {engine : Engine} {now T : Instant} {config : PortfolioBacktestConfig} {s t : RunState}

section Continuation

variable {s₀ : RunState}

theorem RunState.ContinuesTo.refl : s.ContinuesTo T s :=
  ⟨rfl, rfl, rfl, s.signals, [], (List.append_nil _).symm,
    List.forall₂_same.mpr fun _ _ => ⟨rfl, .inl rfl⟩, by simp⟩

/-- An open signal has not been resolved. -/
def RunState.Undated (s : RunState) : Prop :=
  ∀ signal ∈ s.signals, signal.status = .pending → signal.executionAt = none

/-- A signal is resolved at the fill or the drop of its order. -/
theorem RunState.Undated.step (h : s.Undated) (hstep : Step engine config now s t) :
    t.Undated := by
  intro signal hsignal hpending
  cases hstep with
  | same | mark | record | manage => exact h signal hsignal hpending
  | skipEntry | skipExit | fillEntry | fillExit =>
    rcases List.mem_or_eq_of_mem_set hsignal with hold | rfl
    · exact h signal hold hpending
    · cases hpending
  | queueExit | queueEntry =>
    rcases List.mem_append.mp hsignal with hold | hnew
    · exact h signal hold hpending
    · rw [List.mem_singleton.mp hnew]

theorem after_resolve {i : ℕ} {signal resolved : PortfolioSignal}
    (h : ∃ kept later, s.signals = kept ++ later ∧
      List.Forall₂ (PortfolioSignal.Settles T) s₀.signals kept ∧
      ∀ signal ∈ later, T < signal.signalAt)
    (hsignal : s.signals[i]? = some signal) (hpending : signal.status = .pending)
    (hundated : signal.executionAt = none) (hdecision : resolved.decision = signal.decision)
    (hstatus : resolved.status = .executed ∧ resolved.reason = signal.reason ∨
      resolved.status = .skipped)
    (hlate : ∃ executionAt, resolved.executionAt = some executionAt ∧ T < executionAt) :
    ∃ kept later, s.signals.set i resolved = kept ++ later ∧
      List.Forall₂ (PortfolioSignal.Settles T) s₀.signals kept ∧
      ∀ signal ∈ later, T < signal.signalAt := by
  obtain ⟨kept, later, hsplit, hkept, hlater⟩ := h
  rw [hsplit] at hsignal ⊢
  rcases Nat.lt_or_ge i kept.length with hi | hi
  · rw [List.getElem?_append_left hi] at hsignal
    obtain ⟨old, hold, hsettles⟩ := forall₂_getElem? hkept hsignal
    -- The signal is still what it was, for it has no date.
    obtain rfl : signal = old := by
      rcases hsettles.later with heq | ⟨_, _, at', hat, _⟩
      · exact heq
      · rw [hundated] at hat
        cases hat
    refine ⟨kept.set i resolved, later, List.set_append_left i resolved hi,
      forall₂_set hkept hold ⟨hdecision, .inr ⟨hpending, hstatus, hlate⟩⟩, hlater⟩
  · rw [List.getElem?_append_right hi] at hsignal
    refine ⟨kept, later.set (i - kept.length) resolved, List.set_append_right i resolved hi, hkept,
      fun other hother => ?_⟩
    rcases List.mem_or_eq_of_mem_set hother with hother | rfl
    · exact hlater other hother
    · have hat : other.signalAt = signal.signalAt := congrArg (·.2.2.1) hdecision
      rw [hat]
      exact hlater signal (List.mem_of_getElem? hsignal)

theorem after_queue {signal : PortfolioSignal}
    (h : ∃ kept later, s.signals = kept ++ later ∧
      List.Forall₂ (PortfolioSignal.Settles T) s₀.signals kept ∧
      ∀ signal ∈ later, T < signal.signalAt) (hlate : T < signal.signalAt) :
    ∃ kept later, s.signals ++ [signal] = kept ++ later ∧
      List.Forall₂ (PortfolioSignal.Settles T) s₀.signals kept ∧
      ∀ signal ∈ later, T < signal.signalAt := by
  obtain ⟨kept, later, hsplit, hkept, hlater⟩ := h
  refine ⟨kept, later ++ [signal], by rw [hsplit, List.append_assoc], hkept, fun other hother => ?_⟩
  rcases List.mem_append.mp hother with hother | hother
  · exact hlater other hother
  · rwa [List.mem_singleton.mp hother]

/-- What a later step adds is dated after `T`, so what was known at `T` is only extended. -/
theorem RunState.ContinuesTo.step (h : s₀.ContinuesTo T s) (hmatched : s.Matched)
    (hundated : s.Undated) (hT : T < now) (hstep : Step engine config now s t) :
    s₀.ContinuesTo T t := by
  have hundatedAt {i : ℕ} {signal : PortfolioSignal} (hsignal : s.signals[i]? = some signal)
      (hpending : signal.status = .pending) : signal.executionAt = none :=
    hundated signal (List.mem_of_getElem? hsignal) hpending
  cases hstep with
  | same | mark | manage => exact ⟨h.entries, h.exits, h.equity, h.signals⟩
  | record =>
    refine ⟨h.entries, h.exits, ?_, h.signals⟩
    rw [← h.equity]
    exact filter_append_later (by simp [hT])
  | skipEntry hpending hsignal hat _ =>
    have hstatus := (hmatched.entry hpending hsignal).1
    exact ⟨h.entries, h.exits, h.equity, after_resolve h.signals hsignal hstatus
      (hundatedAt hsignal hstatus) rfl (.inr rfl) ⟨_, rfl, hat.timestamp ▸ hT⟩⟩
  | skipExit hpending hsignal hat _ =>
    have hstatus := (hmatched.exit hpending hsignal).1
    exact ⟨h.entries, h.exits, h.equity, after_resolve h.signals hsignal hstatus
      (hundatedAt hsignal hstatus) rfl (.inr rfl) ⟨_, rfl, hat.timestamp ▸ hT⟩⟩
  | fillEntry hpending hsignal hat =>
    have hstatus := (hmatched.entry hpending hsignal).1
    obtain rfl := hat.timestamp
    refine ⟨?_, h.exits, h.equity, after_resolve h.signals hsignal hstatus
      (hundatedAt hsignal hstatus) rfl (.inl ⟨rfl, rfl⟩) ⟨_, rfl, hT⟩⟩
    rw [← h.entries]
    exact filter_append_later (by simp [hT])
  | fillExit hpending hsignal hat =>
    have hstatus := (hmatched.exit hpending hsignal).1
    obtain rfl := hat.timestamp
    refine ⟨h.entries, ?_, h.equity, after_resolve h.signals hsignal hstatus
      (hundatedAt hsignal hstatus) rfl (.inl ⟨rfl, rfl⟩) ⟨_, rfl, hT⟩⟩
    rw [← h.exits]
    exact filter_append_later (by simp [hT])
  | queueExit => exact ⟨h.entries, h.exits, h.equity, after_queue h.signals hT⟩
  | queueEntry => exact ⟨h.entries, h.exits, h.equity, after_queue h.signals hT⟩

theorem RunState.Undated.steps (h : s.Undated) (hsteps : Steps engine config now s t) :
    t.Undated := by
  induction hsteps with
  | refl => exact h
  | tail _ hst ih => exact ih.step hst

theorem Trace.undated (h : Trace engine config now s) : s.Undated :=
  h.invariant (P := fun _ s => s.Undated) (fun _ => by simp [RunState.Undated, RunState.initial])
    (fun _ _ _ hs hstep => hs.step hstep) fun _ _ _ hs _ => hs

theorem RunState.ContinuesTo.steps (h : s₀.ContinuesTo T s) (htrace : Trace engine config now s)
    (hT : T < now) (hsteps : Steps engine config now s t) : s₀.ContinuesTo T t := by
  induction hsteps with
  | refl => exact h
  | tail hbefore hst ih =>
    have hnow := htrace.steps hbefore
    exact ih.step hnow.consistent.matched hnow.undated hT hst

def RunState.SignalledBy (T : Instant) (s : RunState) : Prop :=
  ∀ signal ∈ s.signals, signal.signalAt ≤ T

/-- The signals of a step are raised at its instant. -/
theorem RunState.SignalledBy.step (h : s.SignalledBy T) (hT : now ≤ T)
    (hstep : Step engine config now s t) : t.SignalledBy T := by
  intro signal hsignal
  cases hstep with
  | same | mark | record | manage => exact h signal hsignal
  | skipEntry _ hold _ _ | skipExit _ hold _ _ | fillEntry _ hold _ | fillExit _ hold _ =>
    rcases List.mem_or_eq_of_mem_set hsignal with hother | rfl
    · exact h signal hother
    · have hat := h _ (List.mem_of_getElem? hold)
      exact hat
  | queueExit | queueEntry =>
    rcases List.mem_append.mp hsignal with hother | hnew
    · exact h signal hother
    · rw [List.mem_singleton.mp hnew]
      exact hT

theorem RunState.SignalledBy.steps (h : s.SignalledBy T) (hT : now ≤ T)
    (hsteps : Steps engine config now s t) : t.SignalledBy T := by
  induction hsteps with
  | refl => exact h
  | tail _ hst ih => exact ih.step hT hst

end Continuation

section Signals

variable {old a b : PortfolioSignal}

theorem close_decision (signal : PortfolioSignal) : signal.close.decision = signal.decision := by
  unfold PortfolioSignal.close
  split <;> rfl

theorem close_of_pending (h : old.status = .pending) :
    old.close = { old with status := .unfilledEndOfData } := if_pos h

theorem close_of_resolved (h : old.status = .executed ∨ old.status = .skipped) :
    old.close = old := by
  refine if_neg fun hpending => ?_
  rcases h with h | h <;> rw [hpending] at h <;> cases h

theorem not_resolvedBy (h : ∃ executionAt, a.executionAt = some executionAt ∧ T < executionAt) :
    ¬ a.ResolvedBy T := by
  obtain ⟨executionAt, hat, hlate⟩ := h
  rintro ⟨other, hother, hle⟩
  rw [hat] at hother
  cases hother
  exact absurd hle (not_le.mpr hlate)

theorem PortfolioSignal.SameUpTo.symm (h : a.SameUpTo T b) : b.SameUpTo T a :=
  ⟨h.decision.symm, fun hresolved => (h.resolved hresolved.symm).symm,
    fun hb ha => (h.reason ha hb).symm⟩

/-- The signal is still pending in the first run, and is resolved in the second. -/
theorem sameUpTo_pending (hpending : old.status = .pending) (hundated : old.executionAt = none)
    (hdecision : b.decision = old.decision)
    (hstatus : b.status = .executed ∧ b.reason = old.reason ∨ b.status = .skipped)
    (hlate : ∃ executionAt, b.executionAt = some executionAt ∧ T < executionAt) :
    old.close.SameUpTo T b.close := by
  rw [close_of_pending hpending, close_of_resolved (hstatus.imp_left And.left)]
  refine ⟨hdecision.symm, ?_, fun _ hb => ?_⟩
  · rintro (⟨_, hat, _⟩ | hb)
    · exact absurd (hundated.symm.trans hat) (by simp)
    · exact absurd hb (not_resolvedBy hlate)
  · rcases hstatus with ⟨_, hreason⟩ | hskipped
    · exact hreason.symm
    · exact absurd hskipped hb

theorem sameUpTo_of_settles (hundated : old.status = .pending → old.executionAt = none)
    (ha : PortfolioSignal.Settles T old a) (hb : PortfolioSignal.Settles T old b) :
    a.close.SameUpTo T b.close := by
  rcases ha.later with rfl | ⟨hpending, haStatus, haLate⟩
  · rcases hb.later with rfl | ⟨hpending, hbStatus, hbLate⟩
    · exact ⟨rfl, fun _ => rfl, fun _ _ => rfl⟩
    · exact sameUpTo_pending hpending (hundated hpending) hb.decision hbStatus hbLate
  · rcases hb.later with rfl | ⟨_, hbStatus, hbLate⟩
    · exact (sameUpTo_pending hpending (hundated hpending) ha.decision haStatus haLate).symm
    · rw [close_of_resolved (haStatus.imp_left And.left),
        close_of_resolved (hbStatus.imp_left And.left)]
      refine ⟨ha.decision.trans hb.decision.symm, ?_, fun haSkipped hbSkipped => ?_⟩
      · rintro (hresolved | hresolved)
        · exact absurd hresolved (not_resolvedBy haLate)
        · exact absurd hresolved (not_resolvedBy hbLate)
      · have haReason := (haStatus.resolve_right haSkipped).2
        have hbReason := (hbStatus.resolve_right hbSkipped).2
        exact haReason.trans hbReason.symm

theorem forall₂_join {α β γ : Type*} {R : α → β → Prop} {S : α → γ → Prop} {Q : β → γ → Prop}
    {l : List α} {k : List β} {m : List γ} (hR : List.Forall₂ R l k) (hS : List.Forall₂ S l m)
    (h : ∀ a ∈ l, ∀ b c, R a b → S a c → Q b c) : List.Forall₂ Q k m := by
  induction hR generalizing m with
  | nil =>
    cases hS
    exact .nil
  | cons hab _ ih =>
    cases hS with
    | cons hac hrest =>
      exact .cons (h _ (by simp) _ _ hab hac)
        (ih hrest fun a ha => h a (List.mem_cons_of_mem _ ha))

theorem signals_upTo {s₀ s : RunState} (h : s₀.ContinuesTo T s) (hby : s₀.SignalledBy T) :
    ∃ kept, List.Forall₂ (PortfolioSignal.Settles T) s₀.signals kept ∧
      (s.signals.map (·.close)).filter (·.signalAt ≤ T) = kept.map (·.close) := by
  obtain ⟨kept, later, hsplit, hkept, hlater⟩ := h.signals
  refine ⟨kept, hkept, ?_⟩
  have hat (signal : PortfolioSignal) : signal.close.signalAt = signal.signalAt :=
    congrArg (·.2.2.1) (close_decision signal)
  rw [hsplit, List.map_append, filter_append_later, List.filter_eq_self]
  · intro signal hsignal
    obtain ⟨new, hnew, rfl⟩ := List.mem_map.mp hsignal
    obtain ⟨i, hi⟩ := List.mem_iff_getElem?.mp hnew
    obtain ⟨old, hold, hsettles⟩ := forall₂_getElem? hkept hi
    have hdate : new.signalAt = old.signalAt := congrArg (·.2.2.1) hsettles.decision
    rw [hat, hdate]
    exact decide_eq_true (hby old (List.mem_of_getElem? hold))
  · intro signal hsignal
    obtain ⟨new, hnew, rfl⟩ := List.mem_map.mp hsignal
    rw [hat]
    exact decide_eq_false (not_le.mpr (hlater new hnew))

end Signals

/-- Two results agree up to the instant: on the entries and the trades that are
executed by it, on the signals that are generated by it, and on the equity that
is recorded by it. -/
structure PortfolioBacktestResult.SameUpTo (T : Instant) (records : Instant → Bool)
    (a b : PortfolioBacktestResult) : Prop where
  entries : a.entries.filter (·.entryAt ≤ T) = b.entries.filter (·.entryAt ≤ T)
  trades : a.trades.filter (·.exitAt ≤ T) = b.trades.filter (·.exitAt ≤ T)
  signals : List.Forall₂ (PortfolioSignal.SameUpTo T)
    (a.signals.filter (·.signalAt ≤ T)) (b.signals.filter (·.signalAt ≤ T))
  equity : a.equityCurve.filter (fun point => point.timestamp ≤ T && records point.timestamp) =
    b.equityCurve.filter fun point => point.timestamp ≤ T && records point.timestamp

variable {loop : Loop} {b : PortfolioBacktest} {prepared : Prepared}

section Record

variable {day : Day} {loop' : Loop}

def RunState.RecordedAt (now : Instant) (s : RunState) : Prop :=
  s.equityCurve.getLast?.map (·.timestamp) = some now

theorem recordEquity_recordedAt : (recordEquity engine s now).RecordedAt now := by
  simp [RunState.RecordedAt, recordEquity]

theorem RunState.RecordedAt.steps (h : s.RecordedAt now) (hsteps : Steps engine config now s t) :
    t.RecordedAt now := by
  induction hsteps with
  | refl => exact h
  | tail _ hst ih =>
    cases hst with
    | record => exact recordEquity_recordedAt
    | _ => exact ih

theorem phases_record {timestamp : Instant} (h : b.recordsAt timestamp = true) :
    ∃ before after, b.phases timestamp = before ++ .recordEquity :: after := by
  have hwarm : b.window.any (timestamp < ·.signalStartAt) = false := by
    unfold recordsAt at h
    cases hwindow : b.window with
    | none => rfl
    | some window =>
      rw [hwindow] at h
      exact decide_eq_false (not_lt.mpr (of_decide_eq_true h))
  unfold phases
  rw [h, hwarm]
  cases b.config.entryFill with
  | nextOpen => exact ⟨[.executeExits, .executeEntries, .appendBars],
    [.queueExits, .queueEntries], rfl⟩
  | signalClose =>
    exact ⟨[.appendBars, .queueExits, .queueEntries, .executeExits, .executeEntries], [], rfl⟩

theorem runDay_recordedAt (hquoted : day.Quoted) (hkeyed : loop.state.Keyed)
    (hrecords : b.recordsAt day.timestamp = true) (h : b.runDay prepared loop day = .ok loop') :
    loop'.state.RecordedAt day.timestamp := by
  obtain ⟨before, after, hphases⟩ := phases_record hrecords
  unfold runDay at h
  rw [hphases, List.foldlM_append] at h
  obtain ⟨u, hu, h⟩ := bind_ok_iff.mp h
  rw [List.foldlM_cons] at h
  obtain ⟨v, hv, h⟩ := bind_ok_iff.mp h
  have hkeyedU := hkeyed.steps (phases_steps hquoted hkeyed hu)
  have hrecorded : v.state.RecordedAt day.timestamp := by
    obtain ⟨actions, hactions, hrun⟩ := bind_ok_iff.mp hv
    cases hactions
    obtain ⟨w, hw, hrun⟩ := bind_ok_iff.mp hrun
    cases hw
    cases hrun
    exact recordEquity_recordedAt
  have hkeyedV := hkeyedU.steps (runPhase_steps hquoted hkeyedU hv)
  exact hrecorded.steps (phases_steps hquoted hkeyedV h)

end Record

section Runs

variable {a : PortfolioBacktest} {before : Loop}

theorem upTo_state (hprepared : b.prepare = .ok prepared)
    (hrun : ((PortfolioBacktest.days (b.eventRows prepared.bars)).filter
      (·.timestamp ≤ T)).foldlM (b.runDay prepared) (b.start prepared) = .ok before) :
    before.state.Undated ∧ before.state.SignalledBy T := by
  have hinvariant := foldlM_invariant
    (P := fun l : Loop => l.state.Keyed ∧ l.state.Undated ∧ l.state.SignalledBy T)
    (fun l day hday l' hl hl' => by
      obtain ⟨hkeyed, hundated, hsignalled⟩ := hl
      obtain ⟨hday, hle⟩ := List.mem_filter.mp hday
      have hsteps := runDay_steps (days_quoted hprepared day hday) hkeyed hl'
      exact ⟨hkeyed.steps hsteps, hundated.steps hsteps,
        hsignalled.steps (of_decide_eq_true hle) hsteps⟩)
    ⟨(Trace.start 0 : Trace b.engine b.config 0 _).keyed,
      by simp [RunState.Undated, start],
      by simp [RunState.SignalledBy, start]⟩ hrun
  exact hinvariant.2

theorem after_continues (hprepared : b.prepare = .ok prepared)
    (hbefore : ((PortfolioBacktest.days (b.eventRows prepared.bars)).filter
      (·.timestamp ≤ T)).foldlM (b.runDay prepared) (b.start prepared) = .ok before)
    (hafter : ((PortfolioBacktest.days (b.eventRows prepared.bars)).filter
      (T < ·.timestamp)).foldlM (b.runDay prepared) before = .ok loop) :
    before.state.ContinuesTo T loop.state := by
  have hpairwise := days_pairwise (b.eventRows prepared.bars)
  have hquoted := days_quoted hprepared
  have hsplit := days_split hpairwise T
  rw [hsplit] at hpairwise hquoted
  have htrace := days_trace hpairwise hquoted hbefore
  have hend := foldlM_end (P := fun rest (l : Loop) =>
      (rest.Pairwise fun a b : Day => a.timestamp < b.timestamp) ∧
        (∀ day ∈ rest, day.Quoted ∧ T < day.timestamp ∧
          Trace b.engine b.config day.timestamp l.state) ∧
        before.state.ContinuesTo T l.state)
    (fun l day rest l' hl hl' => by
      obtain ⟨hordered, hdays, hcontinues⟩ := hl
      rw [List.pairwise_cons] at hordered
      obtain ⟨⟨hquotedDay, hlate, hnow⟩, hrest⟩ := List.forall_mem_cons.mp hdays
      have hsteps := runDay_steps hquotedDay hnow.keyed hl'
      refine ⟨hordered.2, fun later hlater => ?_, hcontinues.steps hnow hlate hsteps⟩
      obtain ⟨hquotedLater, hlater', _⟩ := hrest later hlater
      exact ⟨hquotedLater, hlater', .later (hnow.steps hsteps) (hordered.1 later hlater)⟩)
    ⟨(List.pairwise_append.mp hpairwise).2.1,
      fun day hday => ⟨hquoted day (List.mem_append_right _ hday),
        of_decide_eq_true (List.mem_filter.mp hday).2, htrace day hday⟩,
      .refl⟩ hafter
  exact hend.2.2

theorem runLoop_recordedAt {timestamps : List Instant} {final : Instant}
    (h : b.runLoop = .ok (timestamps, loop)) (hfinal : timestamps.getLast?.getD 0 = final)
    (hrecords : b.recordsAt final = true) : loop.state.RecordedAt final := by
  obtain ⟨prepared, hprepared, h⟩ := bind_ok_iff.mp h
  simp only at h
  split at h
  · cases h
  next hrows =>
    obtain ⟨l, hl, h⟩ := bind_ok_iff.mp h
    cases h
    have hne : timestamps (b.eventRows prepared.bars) ≠ [] := by
      obtain ⟨row, hrow⟩ := List.exists_mem_of_ne_nil _ hrows
      exact List.ne_nil_of_mem (mem_timestamps.mpr ⟨row, hrow, rfl⟩)
    obtain ⟨earlier, last, hlast⟩ := List.eq_nil_or_concat' _ |>.resolve_left hne
    rw [hlast, List.getLast?_append, List.getLast?_singleton] at hfinal
    obtain rfl : last = final := hfinal
    have hpairwise := days_pairwise (b.eventRows prepared.bars)
    have hquoted := days_quoted hprepared
    rw [days, hlast, List.map_append, List.map_singleton] at hl hpairwise hquoted
    rw [List.foldlM_append] at hl
    obtain ⟨u, hu, hl⟩ := bind_ok_iff.mp hl
    rw [List.foldlM_cons] at hl
    obtain ⟨v, hv, hl⟩ := bind_ok_iff.mp hl
    cases hl
    have htrace := days_trace hpairwise hquoted hu _ (List.mem_singleton_self _)
    exact runDay_recordedAt (hquoted _ (by simp)) htrace.keyed hrecords hv

theorem run_upTo (T : Instant) {result : PortfolioBacktestResult}
    (h : b.runPortfolioBacktest = .ok result) :
    ∃ prepared before s, b.prepare = .ok prepared ∧
      ((PortfolioBacktest.days (b.eventRows prepared.bars)).filter
        (·.timestamp ≤ T)).foldlM (b.runDay prepared) (b.start prepared) = .ok before ∧
      before.state.ContinuesTo T s ∧ result.entries = s.entries ∧
      result.trades = s.exits.map (·.trade b.engine.ctx) ∧
      result.signals = s.signals.map (·.close) ∧
      result.equityCurve.filter (fun point => point.timestamp ≤ T && b.recordsAt point.timestamp) =
        s.equityCurve.filter fun point => point.timestamp ≤ T && b.recordsAt point.timestamp := by
  obtain ⟨⟨timestamps, loop⟩, hloop, h⟩ := bind_ok_iff.mp h
  cases h
  obtain ⟨prepared, hprepared, hfold⟩ := bind_ok_iff.mp hloop
  simp only at hfold
  split at hfold
  · cases hfold
  · obtain ⟨l, hl, hfold⟩ := bind_ok_iff.mp hfold
    obtain ⟨-, rfl⟩ := Prod.mk.inj (Except.ok.inj hfold)
    rw [days_split (days_pairwise _) T, List.foldlM_append] at hl
    obtain ⟨before, hbefore, hafter⟩ := bind_ok_iff.mp hl
    obtain ⟨hsignals, hentries⟩ := closeRun_signals l.state (timestamps.getLast?.getD 0)
    refine ⟨prepared, before, l.state, hprepared, hbefore,
      after_continues hprepared hbefore hafter, hentries, ?_, hsignals, ?_⟩
    · simp only [result, RunState.trades, closeRun]
      split <;> rfl
    · simp only [result, closeRun]
      split
      next hlast =>
        refine filter_append_later fun point hpoint => ?_
        obtain rfl := List.mem_singleton.mp hpoint
        -- A last day that records equity leaves nothing to be added.
        have hnot : b.recordsAt (timestamps.getLast?.getD 0) = false := by
          by_contra hrecords
          rw [Bool.not_eq_false] at hrecords
          obtain ⟨point, hpoint, hat⟩ :=
            Option.map_eq_some_iff.mp (runLoop_recordedAt hloop rfl hrecords)
          rw [hpoint] at hlast
          exact absurd hat (of_decide_eq_true hlast)
        rw [hnot, Bool.and_false]
      · rfl

end Runs

/-- Over inputs that agree up to an instant, two runs agree on all executions,
trades and signals up to it, but for the later resolution of signals that are
still open, and on the equity that is recorded by it: no decision and no fill
depends on a later bar. -/
theorem decisions_ignore_later_bars {T : Instant} {a b : PortfolioBacktest}
    (hagree : a.AgreeUpTo T b) {resultA resultB : PortfolioBacktestResult}
    (ha : a.runPortfolioBacktest = .ok resultA) (hb : b.runPortfolioBacktest = .ok resultB) :
    resultA.SameUpTo T a.recordsAt resultB := by
  obtain ⟨pa, before, s, hpa, hbefore, hs, hentries, htrades, hsignals, hequity⟩ := run_upTo T ha
  obtain ⟨pb, before', s', hpb, hbefore', hs', hentries', htrades', hsignals', hequity'⟩ :=
    run_upTo T hb
  rw [← upTo_agree hagree hpa hpb, hbefore] at hbefore'
  cases hbefore'
  obtain ⟨hundated, hby⟩ := upTo_state hpa hbefore
  have hrecords : a.recordsAt = b.recordsAt := by
    unfold recordsAt
    rw [hagree.window]
  have hequityOf {s : RunState} (h : before.state.ContinuesTo T s) :
      s.equityCurve.filter (fun point => point.timestamp ≤ T && a.recordsAt point.timestamp) =
        (before.state.equityCurve.filter (·.timestamp ≤ T)).filter
          fun point => a.recordsAt point.timestamp := by
    rw [← h.equity, List.filter_filter]
    exact List.filter_congr fun _ _ => Bool.and_comm _ _
  refine ⟨?_, ?_, ?_, ?_⟩
  · rw [hentries, hentries', hs.entries, hs'.entries]
  · have htradesOf (exits : List ExitFill) :
        (exits.map (·.trade a.engine.ctx)).filter (·.exitAt ≤ T) =
          (exits.filter (·.exitAt ≤ T)).map (·.trade a.engine.ctx) :=
      List.filter_map
    rw [htrades, htrades', ← hagree.engine, htradesOf, htradesOf, hs.exits, hs'.exits]
  · obtain ⟨kept, hkept, hfilter⟩ := signals_upTo hs hby
    obtain ⟨kept', hkept', hfilter'⟩ := signals_upTo hs' hby
    rw [hsignals, hsignals', hfilter, hfilter', List.forall₂_map_left_iff,
      List.forall₂_map_right_iff]
    exact forall₂_join hkept hkept' fun old hold a b ha hb =>
      sameUpTo_of_settles (hundated old hold) ha hb
  · rw [hequity, hrecords, hequity', ← hrecords, hequityOf hs, hequityOf hs']

def crashOver (window : Option BacktestWindow) (bars : List PriceBar) : PortfolioBacktest :=
  { crash with
    barsByCandidate := Dict.empty.set ⟨.us, "AAA"⟩ bars
    window }

theorem crashOver_agree {T : Instant} {first second : List PriceBar}
    (h : completedAt T first = completedAt T second) (window : Option BacktestWindow) :
    (crashOver window first).AgreeUpTo T (crashOver window second) := by
  refine ⟨rfl, rfl, rfl, rfl, rfl, fun key => ?_, rfl, rfl⟩
  simp only [crashOver, Dict.get?_set]
  split
  · exact h
  · rfl

/-- A fourth bar changes signals, and nothing up to the third day. -/
theorem decisions_ignore_last_bar :
    ∃ resultA resultB : PortfolioBacktestResult,
      (crashOver none [flatBar 1 1, flatBar 2 1, flatBar 3 (1 / 10)]).runPortfolioBacktest =
        .ok resultA ∧
      (crashOver none [flatBar 1 1, flatBar 2 1, flatBar 3 (1 / 10),
        flatBar 4 (1 / 20)]).runPortfolioBacktest = .ok resultB ∧
      resultA.signals ≠ resultB.signals ∧ resultA.SameUpTo 3 (fun _ => true) resultB := by
  obtain ⟨resultA, resultB, hA, hB, hne⟩ := exists_ok_of_check₂
    (x := (crashOver none [flatBar 1 1, flatBar 2 1, flatBar 3 (1 / 10)]).runPortfolioBacktest)
    (y := (crashOver none [flatBar 1 1, flatBar 2 1, flatBar 3 (1 / 10),
      flatBar 4 (1 / 20)]).runPortfolioBacktest)
    (P := fun resultA resultB => resultA.signals ≠ resultB.signals) (by decide +kernel)
  exact ⟨resultA, resultB, hA, hB, hne,
    decisions_ignore_later_bars (crashOver_agree (by decide +kernel) none) hA hB⟩

/-- A window that starts after all the bars, and one bar more inside it. The
first run closes with its equity at its only bar; the second one does not. -/
theorem closing_equity_differs :
    ∃ a b : PortfolioBacktest, a.config.entryFill = .nextOpen ∧ a.AgreeUpTo 5 b ∧
      ∃ resultA resultB, a.runPortfolioBacktest = .ok resultA ∧
        b.runPortfolioBacktest = .ok resultB ∧
        resultA.equityCurve.filter (·.timestamp ≤ 5) ≠
          resultB.equityCurve.filter (·.timestamp ≤ 5) := by
  let window : BacktestWindow := { signalStartAt := 10, endAt := 20 }
  obtain ⟨resultA, resultB, hA, hB, hne⟩ := exists_ok_of_check₂
    (x := (crashOver (some window) [flatBar 1 1]).runPortfolioBacktest)
    (y := (crashOver (some window) [flatBar 1 1, flatBar 15 1]).runPortfolioBacktest)
    (P := fun resultA resultB => resultA.equityCurve.filter (·.timestamp ≤ 5) ≠
      resultB.equityCurve.filter (·.timestamp ≤ 5)) (by decide +kernel)
  exact ⟨_, _, rfl, crashOver_agree (by decide +kernel) (some window), resultA, resultB, hA, hB,
    hne⟩

end KAssetTrader.Backtest
