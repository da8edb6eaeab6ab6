import KAssetTrader.Backtest.Steps

/-!
The queues of a run. The pending signals and the pending orders match one to
one, positions and pending orders exclude or require each other by key, and
executed entry signals match the entries.
-/

namespace KAssetTrader.Backtest

open Dict RunState Position Sizing Checked

theorem getElem?_set_of_getElem? {α : Type*} {l : List α} {i : ℕ} {old : α} (h : l[i]? = some old)
    (new : α) (j : ℕ) : (l.set i new)[j]? = if j = i then some new else l[j]? := by
  have hlength := (List.getElem?_eq_some_iff.mp h).1
  rw [List.getElem?_set]
  by_cases hij : j = i
  · simp [hij, hlength]
  · simp [hij, Ne.symm hij]

def RunState.pendingIndex (s : RunState) (action : SignalAction) (key : CandidateKey) : Option ℕ :=
  match action with
  | .buy => (s.pendingEntries.get? key).map (·.signalIndex)
  | .sell => (s.pendingExits.get? key).map (·.signalIndex)
  | .hold => none

inductive QueueStep (s t : RunState) : Prop
  | same : t.signals = s.signals → t.pendingIndex = s.pendingIndex → QueueStep s t
  | resolve (i : ℕ) (signal resolved : PortfolioSignal) :
      s.signals[i]? = some signal →
      resolved.status = .executed ∨ resolved.status = .skipped →
      t.signals = s.signals.set i resolved →
      (∃ action key, s.pendingIndex action key = some i ∧
        ∀ a k, t.pendingIndex a k = if a = action ∧ k = key then none else s.pendingIndex a k) →
      QueueStep s t
  | queue (signal : PortfolioSignal) :
      signal.status = .pending → s.pendingIndex signal.action signal.key = none →
      t.signals = s.signals ++ [signal] →
      (∀ a k, t.pendingIndex a k =
        if a = signal.action ∧ k = signal.key then some s.signals.length
        else s.pendingIndex a k) →
      QueueStep s t

/-- The pending signals are those of the pending orders. -/
structure RunState.Matched (s : RunState) : Prop where
  sound : ∀ action key i, s.pendingIndex action key = some i →
    ∃ signal, s.signals[i]? = some signal ∧ signal.status = .pending ∧
      signal.action = action ∧ signal.key = key
  complete : ∀ i signal, s.signals[i]? = some signal → signal.status = .pending →
    s.pendingIndex signal.action signal.key = some i
  open' : ∀ signal ∈ s.signals, signal.status ≠ .unfilledEndOfData

section Queues

variable {engine : Engine} {config : PortfolioBacktestConfig} {now : Instant} {s t : RunState}

variable {order : PendingEntry} {signal : PortfolioSignal} {k key : CandidateKey}

theorem pendingIndex_resolveEntry (hpending : s.pendingEntries.get? order.key = some order)
    (hentries : t.pendingEntries = s.pendingEntries.erase order.key)
    (hexits : t.pendingExits = s.pendingExits) :
    ∃ action key, s.pendingIndex action key = some order.signalIndex ∧
      ∀ a k, t.pendingIndex a k =
        if a = action ∧ k = key then none else s.pendingIndex a k := by
  refine ⟨.buy, order.key, by simp [pendingIndex, hpending], fun a k => ?_⟩
  cases a with
  | buy =>
    simp only [pendingIndex, hentries, get?_erase, true_and]
    split <;> rfl
  | sell => simp [pendingIndex, hexits]
  | hold => simp [pendingIndex]

theorem pendingIndex_resolveExit {order : PendingExit}
    (hpending : s.pendingExits.get? order.key = some order)
    (hentries : t.pendingEntries = s.pendingEntries)
    (hexits : t.pendingExits = s.pendingExits.erase order.key) :
    ∃ action key, s.pendingIndex action key = some order.signalIndex ∧
      ∀ a k, t.pendingIndex a k =
        if a = action ∧ k = key then none else s.pendingIndex a k := by
  refine ⟨.sell, order.key, by simp [pendingIndex, hpending], fun a k => ?_⟩
  cases a with
  | buy => simp [pendingIndex, hentries]
  | sell =>
    simp only [pendingIndex, hexits, get?_erase, true_and]
    split <;> rfl
  | hold => simp [pendingIndex]

theorem Step.queueStep (h : Step engine config now s t) : QueueStep s t := by
  cases h with
  | same | mark | record | manage => exact .same rfl rfl
  | @skipEntry order signal reference reason hpending hsignal _ _ =>
    exact .resolve order.signalIndex signal (signal.skip reference reason) hsignal (.inr rfl) rfl
      (pendingIndex_resolveEntry hpending rfl rfl)
  | @fillEntry order signal reference _ _ _ _ _ hpending hsignal =>
    exact .resolve order.signalIndex signal _ hsignal (.inl rfl) rfl
      (pendingIndex_resolveEntry hpending rfl rfl)
  | @skipExit order signal reference reason hpending hsignal _ _ =>
    exact .resolve order.signalIndex signal (signal.skip reference reason) hsignal (.inr rfl) rfl
      (pendingIndex_resolveExit hpending rfl rfl)
  | @fillExit order signal reference _ _ _ hpending hsignal =>
    exact .resolve order.signalIndex signal _ hsignal (.inl rfl) rfl
      (pendingIndex_resolveExit hpending rfl rfl)
  | @queueExit key barsHeld managerState position observed exit hposition hpending _ =>
    refine .queue _ rfl (by simp [pendingIndex, hpending]) rfl fun a k => ?_
    cases a with
    | buy => simp [RunState.pendingIndex, Backtest.queueExit, RunState.manage]
    | sell =>
      simp only [pendingIndex, Backtest.queueExit, get?_set, true_and]
      split <;> rfl
    | hold => simp [pendingIndex]
  | @queueEntry candidate observed atr rankPosition regime entry hposition hpending =>
    refine .queue _ rfl (by simp [pendingIndex, hpending]) rfl fun a k => ?_
    cases a with
    | buy =>
      simp only [pendingIndex, Backtest.queueEntry, get?_set, true_and]
      split <;> rfl
    | sell => simp [pendingIndex, Backtest.queueEntry]
    | hold => simp [pendingIndex]

/-- An order is queued with its signal, and leaves the queue together with it. -/
theorem RunState.Matched.step (h : s.Matched) (hstep : QueueStep s t) : t.Matched := by
  cases hstep with
  | same hsignals hindex =>
    refine ⟨?_, ?_, ?_⟩
    · rw [hsignals, hindex]
      exact h.sound
    · rw [hsignals, hindex]
      exact h.complete
    · rw [hsignals]
      exact h.open'
  | resolve i signal resolved hsignal hstatus hsignals hpending =>
    obtain ⟨action, key, hi, hindex⟩ := hpending
    have hresolved : resolved.status ≠ .pending := by
      rcases hstatus with hstatus | hstatus <;> rw [hstatus] <;> decide
    obtain ⟨found, hfound, hpendingStatus, haction, hkey⟩ := h.sound action key i hi
    refine ⟨fun a k j hj => ?_, fun j other hother hother' => ?_, fun other hother => ?_⟩
    · rw [hindex] at hj
      split at hj
      · cases hj
      next hne =>
        obtain ⟨other, hother, hrest⟩ := h.sound a k j hj
        -- The order at another place has another signal.
        have hji : j ≠ i := by
          rintro rfl
          rw [hfound] at hother
          cases hother
          exact hne ⟨hrest.2.1.symm.trans haction, hrest.2.2.symm.trans hkey⟩
        refine ⟨other, ?_, hrest⟩
        rw [hsignals, getElem?_set_of_getElem? hsignal, if_neg hji]
        exact hother
    · rw [hsignals, getElem?_set_of_getElem? hsignal] at hother
      split at hother
      · cases hother
        exact absurd hother' hresolved
      next hji =>
        have hold := h.complete j other hother hother'
        rw [hindex, if_neg, hold]
        rintro ⟨ha, hk⟩
        rw [ha, hk, hi] at hold
        exact hji (Option.some.inj hold).symm
    · rw [hsignals] at hother
      rcases List.mem_or_eq_of_mem_set hother with hother | rfl
      · exact h.open' other hother
      · rcases hstatus with hstatus | hstatus <;> rw [hstatus] <;> decide
  | queue signal hstatus hnone hsignals hindex =>
    refine ⟨fun a k j hj => ?_, fun j other hother hother' => ?_, fun other hother => ?_⟩
    · rw [hindex] at hj
      split at hj
      next heq =>
        cases hj
        exact ⟨signal, by rw [hsignals]; simp, hstatus, heq.1.symm, heq.2.symm⟩
      · obtain ⟨other, hother, hrest⟩ := h.sound a k j hj
        have hlength := (List.getElem?_eq_some_iff.mp hother).1
        exact ⟨other, by rw [hsignals, List.getElem?_append_left hlength, hother], hrest⟩
    · rw [hsignals] at hother
      rcases Nat.lt_or_ge j s.signals.length with hj | hj
      · rw [List.getElem?_append_left hj] at hother
        have hold := h.complete j other hother hother'
        rw [hindex, if_neg, hold]
        rintro ⟨ha, hk⟩
        rw [ha, hk, hnone] at hold
        cases hold
      · rw [List.getElem?_append_right hj, List.getElem?_singleton] at hother
        split at hother
        · cases hother
          rw [hindex, if_pos ⟨rfl, rfl⟩]
          congr 1
          omega
        · cases hother
    · rw [hsignals] at hother
      rcases List.mem_append.mp hother with hother | hother
      · exact h.open' other hother
      · rw [List.mem_singleton.mp hother, hstatus]
        decide

theorem RunState.Matched.entry (h : s.Matched)
    (hpending : s.pendingEntries.get? order.key = some order)
    (hsignal : s.signals[order.signalIndex]? = some signal) :
    signal.status = .pending ∧ signal.action = .buy ∧ signal.key = order.key := by
  obtain ⟨found, hfound, hrest⟩ :=
    h.sound .buy order.key order.signalIndex (by simp [pendingIndex, hpending])
  rw [hfound] at hsignal
  cases hsignal
  exact hrest

theorem RunState.Matched.exit (h : s.Matched) {order : PendingExit}
    (hpending : s.pendingExits.get? order.key = some order)
    (hsignal : s.signals[order.signalIndex]? = some signal) :
    signal.status = .pending ∧ signal.action = .sell ∧ signal.key = order.key := by
  obtain ⟨found, hfound, hrest⟩ :=
    h.sound .sell order.key order.signalIndex (by simp [pendingIndex, hpending])
  rw [hfound] at hsignal
  cases hsignal
  exact hrest

/-- The positions, against the orders that are pending. -/
structure RunState.Holds (config : PortfolioBacktestConfig) (now : Instant) (s : RunState) :
    Prop where
  size : s.positions.size ≤ config.maxPositions
  entry : ∀ key order, s.pendingEntries.get? key = some order → s.positions.get? key = none
  exit : ∀ key order, s.pendingExits.get? key = some order →
    ∃ position, s.positions.get? key = some position ∧ position.entryAt < now

variable {positions : Dict CandidateKey PortfolioPosition}
  {f : PortfolioPosition → PortfolioPosition} {now' : Instant}

theorem get?_modify_entryAt (hf : ∀ position, (f position).entryAt = position.entryAt)
    (h : ∃ position, positions.get? key = some position ∧ position.entryAt < now) :
    ∃ position, (positions.modify k f).get? key = some position ∧ position.entryAt < now := by
  obtain ⟨position, hposition, hentry⟩ := h
  rw [get?_modify]
  split
  · exact ⟨f position, by rw [hposition]; rfl, by rw [hf]; exact hentry⟩
  · exact ⟨position, hposition, hentry⟩

theorem get?_modify_none (h : positions.get? key = none) :
    (positions.modify k f).get? key = none := by
  rw [get?_modify]
  split
  · rw [h]
    rfl
  · exact h

/-- A fill changes the position that its pending order is about. -/
theorem RunState.Holds.step (h : s.Holds config now) (hstep : Step engine config now s t) :
    t.Holds config now := by
  cases hstep with
  | same | record => exact ⟨h.size, h.entry, h.exit⟩
  | mark | manage =>
    refine ⟨?_, fun key order horder => ?_, fun key order horder => ?_⟩
    · exact (size_modify _ _).trans_le h.size
    · exact get?_modify_none (h.entry key order horder)
    · exact get?_modify_entryAt (fun _ => rfl) (h.exit key order horder)
  | skipEntry =>
    refine ⟨h.size, fun key order horder => ?_, h.exit⟩
    exact h.entry key order (of_get?_erase horder).2
  | @fillEntry order signal reference _ _ _ _ _ hpending _ _ hsize =>
    have hfree := h.entry order.key order hpending
    refine ⟨?_, fun key other hother => ?_, fun key other hother => ?_⟩
    · exact (size_set _ hfree).trans_le hsize
    · obtain ⟨hne, hold⟩ := of_get?_erase hother
      exact (get?_set _).trans ((if_neg hne).trans (h.entry key other hold))
    · obtain ⟨position, hposition, hentry⟩ := h.exit key other hother
      refine ⟨position, (get?_set _).trans ((if_neg ?_).trans hposition), hentry⟩
      rintro rfl
      rw [hfree] at hposition
      cases hposition
  | skipExit =>
    exact ⟨h.size, h.entry, fun key order horder => h.exit key order (of_get?_erase horder).2⟩
  | @fillExit order signal reference position quantity _ hpending _ _ hposition =>
    refine ⟨?_, fun key other hother => ?_, fun key other hother => ?_⟩
    · show Dict.size (ite _ _ _) ≤ _
      split
      · exact (size_erase_le _).trans h.size
      · exact (size_modify _ _).trans_le h.size
    · have hfree := h.entry key other hother
      show get? (ite _ _ _) _ = _
      split
      · rw [get?_erase, hfree, ite_self]
      · exact get?_modify_none hfree
    · obtain ⟨hne, hold⟩ := of_get?_erase hother
      show ∃ position, get? (ite _ _ _) _ = _ ∧ _
      split
      · rw [get?_erase, if_neg hne]
        exact h.exit key other hold
      · exact get?_modify_entryAt (fun _ => rfl) (h.exit key other hold)
  | @queueExit key _ _ position _ _ hposition hpending hentry =>
    refine ⟨?_, fun other order horder => ?_, fun other order horder => ?_⟩
    · exact (size_modify _ _).trans_le h.size
    · exact get?_modify_none (h.entry other order horder)
    · refine get?_modify_entryAt (fun _ => rfl) ?_
      rcases of_get?_set horder with ⟨rfl, _⟩ | ⟨_, hold⟩
      · exact ⟨position, hposition, hentry⟩
      · exact h.exit other order hold
  | @queueEntry candidate _ _ _ _ _ hposition _ =>
    refine ⟨h.size, fun other order horder => ?_, h.exit⟩
    rcases of_get?_set horder with ⟨rfl, _⟩ | ⟨_, hold⟩
    · exact hposition
    · exact h.entry other order hold

structure RunState.EntriesMatched (s : RunState) : Prop where
  sound : ∀ entry ∈ s.entries, ∃ signal, s.signals[entry.signalIndex]? = some signal ∧
    signal.action = .buy ∧ signal.status = .executed ∧ signal.key = entry.key ∧
    signal.executionAt = some entry.entryAt
  complete : ∀ i signal, s.signals[i]? = some signal → signal.action = .buy →
    signal.status = .executed → i ∈ s.entries.map (·.signalIndex)
  nodup : (s.entries.map (·.signalIndex)).Nodup

namespace RunState.EntriesMatched

variable {i : ℕ} {signal resolved : PortfolioSignal}

variable (h : s.EntriesMatched)
include h

theorem index_ne (hsignal : s.signals[i]? = some signal) (hpending : signal.status = .pending) :
    ∀ entry ∈ s.entries, entry.signalIndex ≠ i := by
  rintro entry hentry rfl
  obtain ⟨other, hother, _, hexecuted, _⟩ := h.sound entry hentry
  rw [hsignal] at hother
  cases hother
  rw [hpending] at hexecuted
  cases hexecuted

theorem resolve (hsignal : s.signals[i]? = some signal) (hpending : signal.status = .pending)
    (hresolved : ¬ (resolved.action = .buy ∧ resolved.status = .executed))
    (hsignals : t.signals = s.signals.set i resolved) (hentries : t.entries = s.entries) :
    t.EntriesMatched := by
  refine ⟨fun entry hentry => ?_, fun j other hother haction hstatus => ?_, hentries ▸ h.nodup⟩
  · rw [hentries] at hentry
    rw [hsignals, getElem?_set_of_getElem? hsignal,
      if_neg (h.index_ne hsignal hpending entry hentry)]
    exact h.sound entry hentry
  · rw [hsignals, getElem?_set_of_getElem? hsignal] at hother
    split at hother
    · cases hother
      exact absurd ⟨haction, hstatus⟩ hresolved
    · rw [hentries]
      exact h.complete j other hother haction hstatus

theorem queue (hpending : signal.status = .pending) (hsignals : t.signals = s.signals ++ [signal])
    (hentries : t.entries = s.entries) :
    t.EntriesMatched := by
  refine ⟨fun entry hentry => ?_, fun j other hother haction hstatus => ?_, hentries ▸ h.nodup⟩
  · rw [hentries] at hentry
    obtain ⟨other, hother, hrest⟩ := h.sound entry hentry
    have hlength := (List.getElem?_eq_some_iff.mp hother).1
    exact ⟨other, by rw [hsignals, List.getElem?_append_left hlength, hother], hrest⟩
  · rw [hsignals] at hother
    rcases Nat.lt_or_ge j s.signals.length with hj | hj
    · rw [List.getElem?_append_left hj] at hother
      rw [hentries]
      exact h.complete j other hother haction hstatus
    · rw [List.getElem?_append_right hj, List.getElem?_singleton] at hother
      split at hother
      · cases hother
        rw [hpending] at hstatus
        cases hstatus
      · cases hother

theorem fill (hsignal : s.signals[i]? = some signal) (hpending : signal.status = .pending)
    {entry : EntryFill} (hindex : entry.signalIndex = i)
    (hresolved : resolved.action = .buy ∧ resolved.status = .executed ∧ resolved.key = entry.key ∧
      resolved.executionAt = some entry.entryAt) (hsignals : t.signals = s.signals.set i resolved)
    (hentries : t.entries = s.entries ++ [entry]) :
    t.EntriesMatched := by
  subst hindex
  have hne := h.index_ne hsignal hpending
  refine ⟨fun other hother => ?_, fun j other hother haction hstatus => ?_, ?_⟩
  · rw [hsignals, getElem?_set_of_getElem? hsignal]
    rw [hentries] at hother
    rcases List.mem_append.mp hother with hother | hother
    · rw [if_neg (hne other hother)]
      exact h.sound other hother
    · rw [List.mem_singleton.mp hother, if_pos rfl]
      exact ⟨resolved, rfl, hresolved⟩
  · rw [hentries, List.map_append, List.mem_append]
    rw [hsignals, getElem?_set_of_getElem? hsignal] at hother
    split at hother
    next hj => exact .inr (by simp [hj])
    · exact .inl (h.complete j other hother haction hstatus)
  · rw [hentries, List.map_append, List.map_singleton, List.nodup_append]
    refine ⟨h.nodup, List.nodup_singleton _, ?_⟩
    intro j hj k hk hjk
    obtain ⟨other, hother, rfl⟩ := List.mem_map.mp hj
    exact hne other hother (hjk.trans (List.mem_singleton.mp hk))

theorem step (hmatched : s.Matched) (hstep : Step engine config now s t) :
    t.EntriesMatched := by
  cases hstep with
  | same | mark | record | manage => exact ⟨h.sound, h.complete, h.nodup⟩
  | @skipEntry order signal reference reason hpending hsignal _ _ =>
    obtain ⟨hstatus, _, _⟩ := hmatched.entry hpending hsignal
    refine h.resolve hsignal hstatus ?_ rfl rfl
    rintro ⟨_, ⟨⟩⟩
  | @fillEntry order signal reference _ _ _ _ _ hpending hsignal =>
    obtain ⟨hstatus, haction, hkey⟩ := hmatched.entry hpending hsignal
    refine h.fill hsignal hstatus ?_ ?_ rfl rfl
    · rfl
    · exact ⟨haction, rfl, hkey, rfl⟩
  | @skipExit order signal reference reason hpending hsignal _ _ =>
    obtain ⟨hstatus, _, _⟩ := hmatched.exit hpending hsignal
    refine h.resolve hsignal hstatus ?_ rfl rfl
    rintro ⟨_, ⟨⟩⟩
  | @fillExit order signal reference _ _ _ hpending hsignal =>
    obtain ⟨hstatus, haction, _⟩ := hmatched.exit hpending hsignal
    refine h.resolve hsignal hstatus ?_ rfl rfl
    rintro ⟨hbuy, _⟩
    exact absurd (haction.symm.trans hbuy) (by decide)
  | queueExit => exact h.queue rfl rfl rfl
  | queueEntry => exact h.queue rfl rfl rfl

end RunState.EntriesMatched

/-- No order was dropped because its position had been closed. -/
def RunState.NoneClosed (s : RunState) : Prop :=
  ∀ signal ∈ s.signals, ¬ (signal.status = .skipped ∧ signal.reason = "position_already_closed")

/-- An exit is pending only for a position that is held. -/
theorem RunState.NoneClosed.step (h : s.NoneClosed) (hholds : s.Holds config now)
    (hstep : Step engine config now s t) : t.NoneClosed := by
  intro signal hsignal ⟨hstatus, hreason⟩
  cases hstep with
  | same | mark | record | manage => exact h signal hsignal ⟨hstatus, hreason⟩
  | skipEntry _ _ _ hne =>
    rcases List.mem_or_eq_of_mem_set hsignal with hold | rfl
    · exact h signal hold ⟨hstatus, hreason⟩
    · exact hne hreason
  | skipExit hpending _ _ hclosed =>
    rcases List.mem_or_eq_of_mem_set hsignal with hold | rfl
    · exact h signal hold ⟨hstatus, hreason⟩
    · obtain ⟨position, hposition, _⟩ := hholds.exit _ _ hpending
      rw [hclosed hreason] at hposition
      cases hposition
  | fillEntry | fillExit =>
    rcases List.mem_or_eq_of_mem_set hsignal with hold | rfl
    · exact h signal hold ⟨hstatus, hreason⟩
    · cases hstatus
  | queueExit | queueEntry =>
    rcases List.mem_append.mp hsignal with hold | hnew
    · exact h signal hold ⟨hstatus, hreason⟩
    · obtain rfl := List.mem_singleton.mp hnew
      cases hstatus

structure RunState.Consistent (config : PortfolioBacktestConfig) (now : Instant) (s : RunState) :
    Prop where
  matched : s.Matched
  holds : s.Holds config now
  entries : s.EntriesMatched
  noneClosed : s.NoneClosed

theorem consistent_initial (config : PortfolioBacktestConfig) (now : Instant) (cash : Decimal) :
    (RunState.initial cash).Consistent config now := by
  have hsignals : (initial cash).signals = [] := rfl
  have hentries : (initial cash).entries = [] := rfl
  have hindex (action : SignalAction) (key : CandidateKey) :
      (initial cash).pendingIndex action key = none := by
    cases action <;> rfl
  constructor
  · constructor
    · simp [hindex]
    · simp [hsignals]
    · simp [hsignals]
  · exact ⟨Nat.zero_le _, fun _ _ _ => rfl, fun _ _ horder => by cases horder⟩
  · constructor
    · simp [hentries]
    · simp [hsignals]
    · simp [hentries]
  · simp [RunState.NoneClosed, hsignals]

/-- Every step of the loop keeps the queues consistent. -/
theorem RunState.Consistent.step (h : s.Consistent config now)
    (hstep : Step engine config now s t) : t.Consistent config now where
  matched := h.matched.step hstep.queueStep
  holds := h.holds.step hstep
  entries := h.entries.step h.matched hstep
  noneClosed := h.noneClosed.step h.holds hstep

theorem RunState.Holds.later (h : s.Holds config now) (hnow : now < now') :
    s.Holds config now' := by
  refine ⟨h.size, h.entry, fun key order horder => ?_⟩
  obtain ⟨position, hposition, hentry⟩ := h.exit key order horder
  exact ⟨position, hposition, hentry.trans hnow⟩

theorem RunState.Consistent.later (h : s.Consistent config now) (hnow : now < now') :
    s.Consistent config now' :=
  ⟨h.matched, h.holds.later hnow, h.entries, h.noneClosed⟩

theorem Trace.consistent (h : Trace engine config now s) : s.Consistent config now :=
  h.invariant (fun now => consistent_initial config now _) (fun _ _ _ hs hstep => hs.step hstep)
    fun _ _ _ hs hnow => hs.later hnow

end Queues

section Run

variable {b : PortfolioBacktest} {loop : Loop}

theorem consistent_of_reaches (h : b.Reaches loop) :
    ∃ now, loop.state.Consistent b.config now := by
  obtain ⟨now, htrace⟩ := reaches_trace h
  exact ⟨now, htrace.consistent⟩

theorem closeRun_signals (s : RunState) (finalTimestamp : Instant) :
    (b.closeRun s finalTimestamp).signals = s.signals.map (·.close) ∧
      (b.closeRun s finalTimestamp).entries = s.entries := by
  unfold PortfolioBacktest.closeRun
  simp only
  split
  · exact ⟨rfl, rfl⟩
  · exact ⟨rfl, rfl⟩

theorem close_executed (signal : PortfolioSignal) :
    signal.close.status = .executed ↔ signal.status = .executed := by
  unfold PortfolioSignal.close
  split
  next hpending => simp [hpending]
  · rfl

theorem close_eq_of_executed {signal : PortfolioSignal} (h : signal.status = .executed) :
    signal.close = signal := by
  unfold PortfolioSignal.close
  rw [h]
  rfl

theorem close_action (signal : PortfolioSignal) : signal.close.action = signal.action := by
  unfold PortfolioSignal.close
  split <;> rfl

theorem close_ne_pending (signal : PortfolioSignal) : signal.close.status ≠ .pending := by
  unfold PortfolioSignal.close
  split
  · exact nofun
  · assumption

/-- What a finished run reports is read off the state its loop has reached. -/
theorem result_of_run {result : PortfolioBacktestResult}
    (h : b.runPortfolioBacktest = .ok result) :
    ∃ now s, Trace b.engine b.config now s ∧ result.signals = s.signals.map (·.close) ∧
      result.entries = s.entries := by
  obtain ⟨⟨timestamps, loop⟩, hloop, h⟩ := bind_ok_iff.mp h
  cases h
  obtain ⟨now, htrace⟩ := reaches_trace (reaches_end hloop)
  obtain ⟨hsignals, hentries⟩ := closeRun_signals loop.state (timestamps.getLast?.getD 0)
  exact ⟨now, loop.state, htrace, hsignals, hentries⟩

/-- In every state of the loop there are at most so many positions as the
configuration allows, no key has both a position and a pending entry, and a key
has at most one pending exit, which belongs to its open position. At the end
every signal is resolved, and the executed entry signals are those of the
entries, one for one. -/
theorem queues_consistent (b : PortfolioBacktest) :
    (∀ loop, b.Reaches loop →
      loop.state.positions.size ≤ b.config.maxPositions ∧
      (∀ key, (loop.state.positions.get? key).isSome →
        loop.state.pendingEntries.get? key = none) ∧
      (∀ key, (loop.state.pendingExits.get? key).isSome →
        (loop.state.positions.get? key).isSome) ∧
      (∀ i j : ℕ, ∀ first second : PortfolioSignal,
        loop.state.signals[i]? = some first → loop.state.signals[j]? = some second →
        first.action = .sell → second.action = .sell → first.key = second.key →
        first.status = .pending → second.status = .pending → i = j) ∧
      ∀ signal ∈ loop.state.signals,
        ¬ (signal.status = .skipped ∧ signal.reason = "position_already_closed")) ∧
    ∀ result, b.runPortfolioBacktest = .ok result →
      (∀ signal ∈ result.signals, signal.status ≠ .pending) ∧
      (result.entries.map (·.signalIndex)).Nodup ∧
      (∀ entry ∈ result.entries, ∃ signal, result.signals[entry.signalIndex]? = some signal ∧
        signal.action = .buy ∧ signal.status = .executed ∧ signal.key = entry.key ∧
        signal.executionAt = some entry.entryAt) ∧
      ∀ i signal, result.signals[i]? = some signal → signal.action = .buy →
        signal.status = .executed → i ∈ result.entries.map (·.signalIndex) := by
  constructor
  · intro loop hreaches
    obtain ⟨now, hconsistent⟩ := consistent_of_reaches hreaches
    refine ⟨hconsistent.holds.size, fun key hkey => ?_, fun key hkey => ?_, ?_,
      hconsistent.noneClosed⟩
    · cases hpending : loop.state.pendingEntries.get? key with
      | none => rfl
      | some order =>
        rw [hconsistent.holds.entry key order hpending] at hkey
        cases hkey
    · obtain ⟨order, horder⟩ := Option.isSome_iff_exists.mp hkey
      obtain ⟨position, hposition, _⟩ := hconsistent.holds.exit key order horder
      rw [hposition]
      rfl
    · intro i j first second hfirst hsecond hsell hsell' hkey hpending hpending'
      have hi := hconsistent.matched.complete i first hfirst hpending
      have hj := hconsistent.matched.complete j second hsecond hpending'
      rw [hsell, hkey] at hi
      rw [hsell', hi] at hj
      exact Option.some.inj hj
  · intro result hrun
    obtain ⟨now, s, htrace, hsignals, hentries⟩ := result_of_run hrun
    have hmatched := htrace.consistent.entries
    refine ⟨fun signal hsignal => ?_, hentries ▸ hmatched.nodup, fun entry hentry => ?_,
      fun i signal hsignal haction hstatus => ?_⟩
    · rw [hsignals] at hsignal
      obtain ⟨old, _, rfl⟩ := List.mem_map.mp hsignal
      exact close_ne_pending old
    · rw [hentries] at hentry
      obtain ⟨signal, hsignal, haction, hstatus, hrest⟩ := hmatched.sound entry hentry
      refine ⟨signal, ?_, haction, hstatus, hrest⟩
      rw [hsignals, List.getElem?_map, hsignal, Option.map_some, close_eq_of_executed hstatus]
    · rw [hsignals, List.getElem?_map] at hsignal
      obtain ⟨old, hold, rfl⟩ := Option.map_eq_some_iff.mp hsignal
      rw [hentries]
      rw [close_action] at haction
      exact hmatched.complete i old hold haction ((close_executed old).mp hstatus)

end Run

def breakoutBuyer : DeterministicStrategy where
  evaluate _ _ _ _ := .ok ⟨.buy, 1, some (1 / 2), .breakout⟩

/-- The assessment of a market with fewer than twenty bars. -/
def sparseRegime : RegimeAssessment where
  regime := .sideways
  weights
    | .momentum => 15 / 100
    | .meanReversion => 40 / 100
    | .breakout => 20 / 100
    | .volatilityTrend => 25 / 100

/-- Functions for short histories, with a ranker that admits every candidate. -/
def sampleEngine : Engine where
  ctx := .exact
  strategies := [breakoutBuyer]
  assessMarketRegime _ := .ok sparseRegime
  rank candidates _ _ _ := .ok (candidates.map fun candidate =>
    ⟨candidate.market, candidate.symbol, some (1 / 10), some 10000, some 10000, true, some 1⟩)
  evaluateShadowSetupEntry _ _ _ _ := .ok ⟨false, none, ""⟩
  computeBenchmarkReturn60 _ _ _ _ := .ok none
  sessionsOpenedSince _ _ _ := some 0

def flatBar (timestamp : Instant) (price : Decimal) : PriceBar :=
  ⟨timestamp, price, price, price, price, 0⟩

def freeCost : MarketExecutionCost := { feeRate := 0, slippageRate := 0 }

def sampleConfig : PortfolioBacktestConfig := { strategyVersion := "v1" }

/-- A purchase with all the cash, before the price collapses. -/
def crash : PortfolioBacktest where
  engine := sampleEngine
  config :=
    { sampleConfig with
      initialCash := 10
      riskPerTradeRate := 1
      maxSymbolAllocation := 1
      usCost := { freeCost with minFeeAbsolute := 1, minimum_nonneg := zero_le_one }
      cash_positive := by norm_num
      risk_between := by norm_num
      allocation_between := by norm_num }
  candidates := [⟨.us, "AAA"⟩]
  barsByCandidate := Dict.empty.set ⟨.us, "AAA"⟩
    [flatBar 1 1, flatBar 2 1, flatBar 3 (1 / 10), flatBar 4 (1 / 20)]

/-- A run with an entry, an exit and an order that finds no later bar. -/
theorem queues_consistent_crash :
    ∃ result, crash.runPortfolioBacktest = .ok result ∧
      result.signals.map (·.status) = [.executed, .executed, .unfilledEndOfData] ∧
      (result.entries.map (·.signalIndex)).Nodup ∧
      ∀ signal ∈ result.signals, signal.status ≠ .pending := by
  obtain ⟨result, hrun, hstatus⟩ := exists_ok_of_check (x := crash.runPortfolioBacktest)
    (P := fun result =>
      result.signals.map (·.status) = [.executed, .executed, .unfilledEndOfData])
    (by decide +kernel)
  obtain ⟨hterminal, hnodup, _⟩ := (queues_consistent crash).2 result hrun
  exact ⟨result, hrun, hstatus, hnodup, hterminal⟩

end KAssetTrader.Backtest
