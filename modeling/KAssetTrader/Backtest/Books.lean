import KAssetTrader.Backtest.Queues
import KAssetTrader.Library.Rounding

/-!
The books of a run over exact arithmetic. Cash, the cost of the open positions
and the results of the exits account for the initial cash, and what an entry
has bought and paid is shared out among its exits and its position.
-/

namespace KAssetTrader.Backtest

open Dict RunState Position Sizing Checked

/-- A quantity with the fee and the slippage of its entry. -/
abbrev Share := Decimal × Decimal × Decimal

def EntryFill.share (entry : EntryFill) : Share := (entry.quantity, entry.fee, entry.slippage)

def ExitFill.share (exit : ExitFill) : Share := (exit.quantity, exit.entryFee, exit.entrySlippage)

def PortfolioPosition.share (position : PortfolioPosition) : Share :=
  (position.quantity, position.entryFeeRemaining, position.entrySlippageRemaining)

def ExitFill.isOf (exit : ExitFill) (entry : EntryFill) : Bool :=
  exit.key = entry.key && exit.entryAt = entry.entryAt

def remainingShare (positions : Dict CandidateKey PortfolioPosition) (entry : EntryFill) : Share :=
  match positions.get? entry.key with
  | some position => if position.entryAt = entry.entryAt then position.share else 0
  | none => 0

def soldShare (exits : List ExitFill) (entry : EntryFill) : Share :=
  ((exits.filter (·.isOf entry)).map (·.share)).sum

/-- What a position has cost so far, less what its exits have taken. -/
def PortfolioPosition.cost (position : PortfolioPosition) : Decimal :=
  position.entryPrice * position.quantity + position.entryFeeRemaining

variable {positions : Dict CandidateKey PortfolioPosition} {position : PortfolioPosition}

section Shares

variable {key : CandidateKey} {entry : EntryFill}

theorem remainingShare_congr {positions' : Dict CandidateKey PortfolioPosition}
    (h : positions'.get? entry.key = positions.get? entry.key) :
    remainingShare positions' entry = remainingShare positions entry := by
  rw [remainingShare, remainingShare, h]

theorem remainingShare_of_get? (h : positions.get? entry.key = some position) :
    remainingShare positions entry =
      if position.entryAt = entry.entryAt then position.share else 0 := by
  rw [remainingShare, h]

theorem remainingShare_none (h : positions.get? entry.key = none) :
    remainingShare positions entry = 0 := by
  rw [remainingShare, h]

theorem remainingShare_modify {f : PortfolioPosition → PortfolioPosition}
    (hf : ∀ position, (f position).entryAt = position.entryAt ∧ (f position).share =
      position.share) :
    remainingShare (positions.modify key f) entry = remainingShare positions entry := by
  by_cases hkey : entry.key = key
  · cases hposition : positions.get? entry.key with
    | none => rw [remainingShare_none hposition, remainingShare_none (get?_modify_none hposition)]
    | some position =>
      have hmodified : (positions.modify key f).get? entry.key = some (f position) := by
        rw [get?_modify, if_pos hkey, hposition]
        rfl
      rw [remainingShare_of_get? hmodified, remainingShare_of_get? hposition, (hf position).1,
        (hf position).2]
  · exact remainingShare_congr (by rw [get?_modify, if_neg hkey])

theorem soldShare_append (exits : List ExitFill) (exit : ExitFill) :
    soldShare (exits ++ [exit]) entry =
      soldShare exits entry + if exit.isOf entry then exit.share else 0 := by
  unfold soldShare
  rw [List.filter_append, List.map_append, List.sum_append]
  by_cases hof : exit.isOf entry = true
  · simp [hof]
  · simp [hof]

theorem soldShare_none {exits : List ExitFill} (h : ∀ exit ∈ exits, exit.isOf entry = false) :
    soldShare exits entry = 0 := by
  have hfilter : exits.filter (·.isOf entry) = [] :=
    List.filter_eq_nil_iff.mpr fun exit hexit => by rw [h exit hexit]; exact Bool.false_ne_true
  rw [soldShare, hfilter]
  rfl

end Shares

/-- The entries of a state: an entry of the present instant still holds its
position, and no two entries of a key are of the same instant. -/
structure RunState.Identified (now : Instant) (s : RunState) : Prop where
  time : ∀ entry ∈ s.entries, entry.entryAt < now ∨ entry.entryAt = now ∧
    ∃ position, s.positions.get? entry.key = some position ∧ position.entryAt = now
  unique : s.entries.Pairwise fun a b => a.key ≠ b.key ∨ a.entryAt ≠ b.entryAt
  position : ∀ key position, s.positions.get? key = some position →
    ∃ entry ∈ s.entries, entry.key = key ∧ entry.entryAt = position.entryAt
  exit : ∀ exit ∈ s.exits, ∃ entry ∈ s.entries, exit.isOf entry

structure RunState.Balanced (config : PortfolioBacktestConfig) (s : RunState) : Prop where
  positive : ∀ key position, s.positions.get? key = some position → 0 < position.quantity
  cash : config.initialCash + (s.exits.map (·.netPnl)).sum =
    s.cash + s.positions.total fun _ position => position.cost
  shares : ∀ entry ∈ s.entries,
    soldShare s.exits entry + remainingShare s.positions entry = entry.share

section Books

variable {engine : Engine} {config : PortfolioBacktestConfig} {now : Instant} {s t : RunState}

variable {k : CandidateKey} {f : PortfolioPosition → PortfolioPosition} {quantity lotSize : Decimal}

theorem modify_positions {P : CandidateKey → PortfolioPosition → Prop}
    (hf : ∀ key position, P key position → P key (f position))
    (h : ∀ key position, positions.get? key = some position → P key position) :
    ∀ key position, (positions.modify k f).get? key = some position → P key position := by
  intro key position hposition
  obtain ⟨old, hold, ⟨_, rfl⟩ | ⟨_, rfl⟩⟩ := of_get?_modify hposition
  · exact hf key old (h key old hold)
  · exact h key _ hold

theorem modify_time {entry : EntryFill} (hf : ∀ position, (f position).entryAt = position.entryAt)
    (h : entry.entryAt < now ∨ entry.entryAt = now ∧ ∃ position, positions.get? entry.key = some
      position ∧ position.entryAt = now) :
    entry.entryAt < now ∨ entry.entryAt = now ∧
      ∃ position, (positions.modify k f).get? entry.key = some position ∧
        position.entryAt = now := by
  refine h.imp_right fun ⟨hnow, position, hposition, hat⟩ => ⟨hnow, ?_⟩
  rw [get?_modify]
  split
  · exact ⟨f position, by rw [hposition]; rfl, by rw [hf]; exact hat⟩
  · exact ⟨position, hposition, hat⟩

/-- An entry is filled at an instant without entries of its key, and a sold position leaves none
open. -/
theorem RunState.Identified.step (h : s.Identified now) (hholds : s.Holds config now)
    (hstep : Step engine config now s t) : t.Identified now := by
  cases hstep with
  | same | record | skipEntry | skipExit | queueEntry =>
    exact ⟨h.time, h.unique, h.position, h.exit⟩
  | mark | manage | queueExit =>
    exact ⟨fun entry hentry => modify_time (fun _ => rfl) (h.time entry hentry), h.unique,
      modify_positions (fun _ _ hposition => hposition) h.position, h.exit⟩
  | @fillEntry order signal reference _ _ _ _ _ hpending hsignal hat =>
    obtain rfl := hat.timestamp
    have hfree := hholds.entry order.key order hpending
    -- An entry of the key at this instant would still hold the position.
    have hfresh : ∀ entry ∈ s.entries, entry.key = order.key →
        entry.entryAt < reference.timestamp := by
      intro entry hentry hkey
      rcases h.time entry hentry with hlt | ⟨_, position, hposition, _⟩
      · exact hlt
      · rw [hkey, hfree] at hposition
        cases hposition
    refine ⟨fun entry hentry => ?_, ?_, fun key position hposition => ?_, fun exit hexit => ?_⟩
    · rcases List.mem_append.mp hentry with hold | hnew
      · refine (h.time entry hold).imp_right fun ⟨hat, position, hposition, hentryAt⟩ =>
          ⟨hat, ?_⟩
        by_cases hkey : entry.key = order.key
        · exact absurd hat (hfresh entry hold hkey).ne
        · exact ⟨position, (get?_set _).trans ((if_neg hkey).trans hposition), hentryAt⟩
      · obtain rfl := List.mem_singleton.mp hnew
        exact .inr ⟨rfl, _, (get?_set _).trans (if_pos rfl), rfl⟩
    · refine List.pairwise_append.mpr ⟨h.unique, List.pairwise_singleton _ _, ?_⟩
      intro entry hentry other hother
      obtain rfl := List.mem_singleton.mp hother
      by_cases hkey : entry.key = order.key
      · exact .inr (hfresh entry hentry hkey).ne
      · exact .inl hkey
    · rcases of_get?_set hposition with ⟨rfl, rfl⟩ | ⟨_, hold⟩
      · exact ⟨_, List.mem_append_right _ (List.mem_singleton_self _), rfl, rfl⟩
      · obtain ⟨entry, hentry, hrest⟩ := h.position key position hold
        exact ⟨entry, List.mem_append_left _ hentry, hrest⟩
    · obtain ⟨entry, hentry, hof⟩ := h.exit exit hexit
      exact ⟨entry, List.mem_append_left _ hentry, hof⟩
  | @fillExit order signal reference position quantity _ hpending _ _ hposition =>
    obtain ⟨held, hheld, hearlier⟩ := hholds.exit order.key order hpending
    rw [hposition] at hheld
    cases hheld
    refine ⟨fun entry hentry => ?_, h.unique, fun key other hother => ?_, fun exit hexit => ?_⟩
    · show entry.entryAt < now ∨ _ ∧ ∃ position, get? (ite _ _ _) _ = _ ∧ _
      split
      · refine (h.time entry hentry).imp_right fun ⟨hat, other, hother, hentryAt⟩ => ⟨hat, ?_⟩
        refine ⟨other, ?_, hentryAt⟩
        rw [get?_erase, if_neg, hother]
        intro hkey
        rw [hkey, hposition] at hother
        cases hother
        exact hearlier.ne hentryAt
      · exact modify_time (fun _ => rfl) (h.time entry hentry)
    · have hcases : get? (ite _ (s.positions.erase order.key) (s.positions.modify order.key _))
          key = some other := hother
      split at hcases
      · exact h.position key other (of_get?_erase hcases).2
      · refine modify_positions (P := fun key held => ∃ entry ∈ s.entries, entry.key = key ∧
          entry.entryAt = held.entryAt) ?_ h.position key other hcases
        exact fun _ _ howned => howned
    · rcases List.mem_append.mp hexit with hold | hnew
      · exact h.exit exit hold
      · obtain rfl := List.mem_singleton.mp hnew
        obtain ⟨entry, hentry, hkey, hat⟩ := h.position order.key position hposition
        exact ⟨entry, hentry, by simp [ExitFill.isOf, hkey, hat]⟩

section Lots

variable {ctx : Decimal.Context} {u : Decimal} (h : ctx.Within u)
include h

theorem roundToLot_le (hquantity : 0 ≤ quantity) (hlot : 0 < lotSize) :
    roundToLot ctx quantity lotSize ≤ (1 + u) ^ 2 * quantity := by
  have hu : 0 ≤ 1 + u := add_nonneg zero_le_one h.nonneg
  have hratio : 0 ≤ quantity / lotSize := div_nonneg hquantity hlot.le
  have hlots : 0 ≤ ctx.div quantity lotSize := h.round_nonneg hratio
  have hwhole : 0 ≤ Decimal.truncate (ctx.div quantity lotSize) * lotSize :=
    mul_nonneg (Decimal.truncate_nonneg hlots) hlot.le
  calc
    roundToLot ctx quantity lotSize ≤
        (1 + u) * (Decimal.truncate (ctx.div quantity lotSize) * lotSize) :=
      h.round_le hwhole
    _ ≤ (1 + u) * (ctx.div quantity lotSize * lotSize) := by
      have htruncate := Decimal.truncate_le hlots
      gcongr
    _ ≤ (1 + u) * ((1 + u) * (quantity / lotSize) * lotSize) := by
      have hdiv : ctx.div quantity lotSize ≤ (1 + u) * (quantity / lotSize) :=
        h.round_le hratio
      gcongr
    _ = (1 + u) ^ 2 * quantity := by field_simp

theorem roundToLot_pos (hlot : 0 < lotSize)
    (hquantity : 0 < roundToLot ctx quantity lotSize) : 0 < quantity := by
  have hlots := (pos_iff_pos_of_mul_pos (h.pos_of_round_pos hquantity)).mpr hlot
  have hratio : 0 < ctx.div quantity lotSize := by
    by_contra hnot
    exact absurd (Decimal.truncate_nonpos (not_lt.mp hnot)) (not_le.mpr hlots)
  exact (div_pos_iff_of_pos_right hlot).mp (h.pos_of_round_pos hratio)

end Lots

theorem partial_lt {fraction lotSize : Decimal} (hpositive : 0 < position.quantity)
    (hlot : 0 < lotSize) (hfraction : fraction < 1)
    (hquantity : 0 < roundToLot .exact (position.quantity * fraction) lotSize) :
    roundToLot .exact (position.quantity * fraction) lotSize < position.quantity := by
  have hexact := Decimal.Context.exact_rounds.toWithin
  have hpart := roundToLot_pos hexact hlot hquantity
  calc
    roundToLot .exact (position.quantity * fraction) lotSize ≤
        (1 + 0) ^ 2 * (position.quantity * fraction) := roundToLot_le hexact hpart.le hlot
    _ = position.quantity * fraction := by ring
    _ < position.quantity * 1 := mul_lt_mul_of_pos_left hfraction hpositive
    _ = position.quantity := mul_one _

/-- What the fill of an exit does to the books: its exit takes a share of the
position, all of it or a part, and the cash changes by its result and by the
cost of that share. -/
structure ExitBooked (s t : RunState) (key : CandidateKey) (position : PortfolioPosition)
    (exit : ExitFill) : Prop where
  exits : t.exits = s.exits ++ [exit]
  entries : t.entries = s.entries
  of : exit.key = key ∧ exit.entryAt = position.entryAt
  cash : t.cash = s.cash + (exit.netPnl + (position.entryPrice * exit.quantity + exit.entryFee))
  positions : (exit.share = position.share ∧ t.positions = s.positions.erase key) ∨
    ∃ f : PortfolioPosition → PortfolioPosition, t.positions = s.positions.modify key f ∧
      exit.share + (f position).share = position.share ∧ 0 < (f position).quantity ∧
      ∀ held, (f held).entryAt = held.entryAt ∧ (f held).entryPrice = held.entryPrice

theorem fillExit_booked (hexact : engine.ctx = .exact) (order : PendingExit)
    (signal : PortfolioSignal) (reference : OpenPrice) {quantity : Decimal}
    (hquantity : quantity = position.quantity ∨ quantity < position.quantity) :
    ∃ exit, ExitBooked s (fillExit engine config s order signal reference position quantity)
      order.key position exit := by
  refine ⟨_, rfl, rfl, ⟨rfl, rfl⟩, ?_, ?_⟩
  · simp only [fillExit, hexact, Decimal.Context.exact_add, Decimal.Context.exact_sub,
      Decimal.Context.exact_mul]
    ring
  · rcases hquantity with rfl | hlt
    · left
      refine ⟨?_, ?_⟩
      · simp [ExitFill.share, PortfolioPosition.share]
      · simp [fillExit, hexact]
    · right
      have hremaining : ¬ position.quantity - quantity ≤ 0 := by linarith
      refine ⟨_, by
        simp only [fillExit, hexact, Decimal.Context.exact_sub, hremaining, if_false]
        rfl, ?_, ?_, ?_⟩
      · simp [ExitFill.share, PortfolioPosition.share, hexact]
      · exact not_le.mp hremaining
      · exact fun held => ⟨rfl, rfl⟩

structure EntryBooked (s t : RunState) (key : CandidateKey) (position : PortfolioPosition)
    (entry : EntryFill) : Prop where
  exits : t.exits = s.exits
  entries : t.entries = s.entries ++ [entry]
  of : entry.key = key ∧ position.entryAt = entry.entryAt ∧ position.share = entry.share
  cash : t.cash = s.cash - position.cost
  positions : t.positions = s.positions.set key position

theorem fillEntry_booked (hexact : engine.ctx = .exact) (order : PendingEntry)
    (signal : PortfolioSignal) (reference : OpenPrice) (fillPrice quantity : Decimal)
    (managerState : ManagedPositionState) :
    ∃ position entry, position.quantity = quantity ∧ entry.entryAt = reference.timestamp ∧
      EntryBooked s
        (fillEntry engine config s order signal reference fillPrice quantity managerState)
        order.key position entry := by
  refine ⟨_, _, rfl, rfl, rfl, rfl, ⟨rfl, rfl, rfl⟩, ?_, rfl⟩
  simp [fillEntry, PortfolioPosition.cost, hexact]

namespace RunState.Balanced

variable {key : CandidateKey} {position : PortfolioPosition}

variable (h : s.Balanced config)
include h

theorem modify {f : PortfolioPosition → PortfolioPosition}
    (hf : ∀ held, (f held).entryAt = held.entryAt ∧ (f held).share = held.share ∧ (f held).cost =
      held.cost) (hpositions : t.positions = s.positions.modify key f) (hcash : t.cash = s.cash)
    (hentries : t.entries = s.entries) (hexits : t.exits = s.exits) : t.Balanced config := by
  have hquantity (held : PortfolioPosition) : (f held).quantity = held.quantity :=
    congrArg Prod.fst (hf held).2.1
  refine ⟨?_, ?_, fun entry hentry => ?_⟩
  · rw [hpositions]
    exact modify_positions (P := fun _ held => 0 < held.quantity)
      (fun _ held hheld => (hquantity held).symm ▸ hheld) h.positive
  · rw [hexits, hcash, hpositions, h.cash]
    congr 1
    exact (total_modify_of_eq _ _ fun _ held => (hf held).2.2).symm
  · rw [hexits, hpositions, remainingShare_modify fun held => ⟨(hf held).1, (hf held).2.1⟩]
    exact h.shares entry (hentries ▸ hentry)

theorem enter (hidentified : t.Identified now) {entry : EntryFill}
    (hbooked : EntryBooked s t key position entry) (hpositive : 0 < position.quantity)
    (hfree : s.positions.get? key = none)
    (hexits : ∀ exit ∈ s.exits, ∃ entry ∈ s.entries, exit.isOf entry) :
    t.Balanced config := by
  obtain ⟨hkey, hat, hshare⟩ := hbooked.of
  have hunique := hidentified.unique
  rw [hbooked.entries, List.pairwise_append] at hunique
  refine ⟨fun other held hheld => ?_, ?_, fun other hother => ?_⟩
  · rw [hbooked.positions] at hheld
    rcases of_get?_set hheld with ⟨_, rfl⟩ | ⟨_, hold⟩
    · exact hpositive
    · exact h.positive other held hold
  · rw [hbooked.exits, hbooked.cash, hbooked.positions, total_set _ _ hfree, h.cash]
    ring
  · rw [hbooked.entries] at hother
    rw [hbooked.exits, hbooked.positions]
    rcases List.mem_append.mp hother with hold | hnew
    · rw [← h.shares other hold]
      congr 1
      by_cases hsame : other.key = key
      · -- The position that was closed before is not the one that is opened now.
        rw [remainingShare_of_get? ((get?_set _).trans (if_pos hsame)),
          remainingShare_none (hsame ▸ hfree), if_neg]
        intro hentryAt
        rcases hunique.2.2 other hold entry (List.mem_singleton_self entry) with hne | hne
        · exact hne (hsame.trans hkey.symm)
        · exact hne (hentryAt.symm.trans hat)
      · exact remainingShare_congr ((get?_set _).trans (if_neg hsame))
    · obtain rfl := List.mem_singleton.mp hnew
      rw [soldShare_none, zero_add,
        remainingShare_of_get? ((get?_set _).trans (if_pos hkey)), if_pos hat, hshare]
      intro exit hexit
      obtain ⟨owner, howner, hof⟩ := hexits exit hexit
      by_contra hofEntry
      rw [Bool.not_eq_false] at hofEntry
      simp only [ExitFill.isOf, Bool.and_eq_true, decide_eq_true_eq] at hof hofEntry
      rcases hunique.2.2 owner howner other (List.mem_singleton_self other) with hne | hne
      · exact hne (hof.1.symm.trans hofEntry.1)
      · exact hne (hof.2.symm.trans hofEntry.2)

theorem exit {exit : ExitFill} (hbooked : ExitBooked s t key position exit)
    (hposition : s.positions.get? key = some position) :
    t.Balanced config := by
  obtain ⟨hkey, hat⟩ := hbooked.of
  have hof (entry : EntryFill) : exit.isOf entry = true ↔
      entry.key = key ∧ position.entryAt = entry.entryAt := by
    simp only [ExitFill.isOf, Bool.and_eq_true, decide_eq_true_eq, hkey, hat]
    exact and_congr_left fun _ => eq_comm
  rcases hbooked.positions with ⟨hshare, hpositions⟩ |
    ⟨f, hpositions, hshare, hpositive, hf⟩
  · have htotal := s.positions.total_erase (fun _ position => position.cost) hposition
    refine ⟨fun other held hheld => ?_, ?_, fun entry hentry => ?_⟩
    · rw [hpositions] at hheld
      exact h.positive other held (of_get?_erase hheld).2
    · rw [hbooked.exits, hbooked.cash, hpositions, List.map_append, List.sum_append, ← add_assoc,
        h.cash, htotal]
      have hquantity : exit.quantity = position.quantity := congrArg Prod.fst hshare
      have hfee : exit.entryFee = position.entryFeeRemaining := congrArg (·.2.1) hshare
      simp only [List.map_cons, List.map_nil, List.sum_cons, List.sum_nil, PortfolioPosition.cost,
        hquantity, hfee]
      ring
    · rw [hbooked.entries] at hentry
      rw [hbooked.exits, soldShare_append, hpositions, ← h.shares entry hentry]
      by_cases hsame : entry.key = key
      · rw [remainingShare_none (by rw [get?_erase, if_pos hsame]),
          remainingShare_of_get? (hsame ▸ hposition)]
        by_cases hown : position.entryAt = entry.entryAt
        · rw [if_pos ((hof entry).mpr ⟨hsame, hown⟩), if_pos hown, hshare, add_zero]
        · rw [if_neg fun hisOf => hown ((hof entry).mp hisOf).2, if_neg hown, add_zero]
      · rw [if_neg fun hisOf => hsame ((hof entry).mp hisOf).1, add_zero]
        congr 1
        exact remainingShare_congr (by rw [get?_erase, if_neg hsame])
  · obtain ⟨hbefore, hafter⟩ :=
      s.positions.total_modify (fun _ position => position.cost) f hposition
    refine ⟨fun other held hheld => ?_, ?_, fun entry hentry => ?_⟩
    · rw [hpositions] at hheld
      obtain ⟨old, hold, ⟨rfl, rfl⟩ | ⟨_, rfl⟩⟩ := of_get?_modify hheld
      · rw [hposition] at hold
        cases hold
        exact hpositive
      · exact h.positive other _ hold
    · rw [hbooked.exits, hbooked.cash, hpositions, List.map_append, List.sum_append, ← add_assoc,
        h.cash, hbefore, hafter]
      have hquantity : exit.quantity + (f position).quantity = position.quantity :=
        congrArg Prod.fst hshare
      have hfee : exit.entryFee + (f position).entryFeeRemaining = position.entryFeeRemaining :=
        congrArg (·.2.1) hshare
      simp only [List.map_cons, List.map_nil, List.sum_cons, List.sum_nil, PortfolioPosition.cost,
        (hf position).2, ← hquantity, ← hfee]
      ring
    · rw [hbooked.entries] at hentry
      rw [hbooked.exits, soldShare_append, hpositions, ← h.shares entry hentry]
      by_cases hsame : entry.key = key
      · have hmodified : (s.positions.modify key f).get? entry.key = some (f position) := by
          rw [get?_modify, if_pos hsame, hsame, hposition]
          rfl
        rw [remainingShare_of_get? hmodified, remainingShare_of_get? (hsame ▸ hposition),
          (hf position).1]
        by_cases hown : position.entryAt = entry.entryAt
        · rw [if_pos ((hof entry).mpr ⟨hsame, hown⟩), if_pos hown, if_pos hown, ← hshare, add_assoc]
        · rw [if_neg fun hisOf => hown ((hof entry).mp hisOf).2, if_neg hown, if_neg hown, add_zero]
      · rw [if_neg fun hisOf => hsame ((hof entry).mp hisOf).1, add_zero]
        congr 1
        exact remainingShare_congr (by rw [get?_modify, if_neg hsame])

theorem step (hexact : engine.ctx = .exact) (hidentified : s.Identified now)
    (hholds : s.Holds config now) (hstep : Step engine config now s t) : t.Balanced config := by
  have hidentified' := hidentified.step hholds hstep
  cases hstep with
  | same | record | skipEntry | skipExit | queueEntry => exact ⟨h.positive, h.cash, h.shares⟩
  | @mark key close =>
    exact h.modify (f := fun position => { position with lastClose := close })
      (fun _ => ⟨rfl, rfl, rfl⟩) rfl rfl rfl rfl
  | @manage key barsHeld managerState =>
    exact h.modify (f := fun position => { position with barsHeld, managerState })
      (fun _ => ⟨rfl, rfl, rfl⟩) rfl rfl rfl rfl
  | @queueExit key barsHeld managerState =>
    exact h.modify (f := fun position => { position with barsHeld, managerState })
      (fun _ => ⟨rfl, rfl, rfl⟩) rfl rfl rfl rfl
  | @fillEntry order signal reference fillPrice quantity _ _ managerState hpending _ _ _ _
    hquantity =>
    obtain ⟨position, entry, hfilled, _, hbooked⟩ :=
      fillEntry_booked hexact order signal reference fillPrice quantity managerState
    exact h.enter hidentified' hbooked (hfilled ▸ hquantity) (hholds.entry _ _ hpending)
      hidentified.exit
  | @fillExit order signal reference position quantity _ _ _ _ hposition hpositive hlot hquantity =>
    obtain ⟨exit, hbooked⟩ := fillExit_booked hexact order signal reference
      (hquantity.imp_right fun hpart => by
        obtain ⟨hfraction, rfl⟩ := hpart
        rw [hexact] at hpositive ⊢
        exact partial_lt (h.positive _ _ hposition) hlot hfraction hpositive)
    exact h.exit hbooked hposition

end RunState.Balanced

theorem identified_initial (now : Instant) (cash : Decimal) :
    (RunState.initial cash).Identified now := by
  have hentries : (initial cash).entries = [] := rfl
  have hexits : (initial cash).exits = [] := rfl
  have hpositions : (initial cash).positions = .empty := rfl
  constructor
  · simp [hentries]
  · simp [hentries]
  · simp [hpositions]
  · simp [hexits]

theorem balanced_initial (config : PortfolioBacktestConfig) :
    (RunState.initial config.initialCash).Balanced config := by
  have hpositions : (initial config.initialCash).positions = .empty := rfl
  have hentries : (initial config.initialCash).entries = [] := rfl
  constructor
  · simp [hpositions]
  · simp [initial]
  · simp [hentries]

theorem Trace.balanced (hexact : engine.ctx = .exact) (h : Trace engine config now s) :
    s.Identified now ∧ s.Balanced config ∧ s.Holds config now := by
  refine h.invariant
    (P := fun now s => s.Identified now ∧ s.Balanced config ∧ s.Holds config now)
    (fun now => ?_) (fun now s t hs hstep => ?_) fun now now' s hs hnow => ?_
  · exact ⟨identified_initial now _, balanced_initial config,
      (consistent_initial config now config.initialCash).holds⟩
  · obtain ⟨hidentified, hbalanced, hholds⟩ := hs
    exact ⟨hidentified.step hholds hstep, hbalanced.step hexact hidentified hholds hstep,
      hholds.step hstep⟩
  · obtain ⟨hidentified, hbalanced, hholds⟩ := hs
    refine ⟨⟨fun entry hentry => .inl ?_, hidentified.unique, hidentified.position,
      hidentified.exit⟩, hbalanced, hholds.later hnow⟩
    rcases hidentified.time entry hentry with hlt | ⟨heq, _⟩
    · exact hlt.trans hnow
    · exact heq.trans_lt hnow

end Books

/-- Over exact arithmetic, in every state of the loop the initial cash and the
results of the exits are the cash and the cost of the open positions; an entry
is known by its key and its instant, every position and every exit belongs to
one, and the quantity, the fee and the slippage of an entry are those of its
exits and of what is left on its position. -/
theorem books_balance {b : PortfolioBacktest} (hexact : b.engine.ctx = .exact) {loop : Loop}
    (h : b.Reaches loop) :
    b.config.initialCash + (loop.state.exits.map (·.netPnl)).sum =
      loop.state.cash + loop.state.positions.total (fun _ position => position.cost) ∧
    (loop.state.entries.Pairwise fun a b => a.key ≠ b.key ∨ a.entryAt ≠ b.entryAt) ∧
    (∀ key position, loop.state.positions.get? key = some position →
      ∃ entry ∈ loop.state.entries, entry.key = key ∧ entry.entryAt = position.entryAt) ∧
    (∀ exit ∈ loop.state.exits, ∃ entry ∈ loop.state.entries, exit.isOf entry) ∧
    ∀ entry ∈ loop.state.entries,
      soldShare loop.state.exits entry + remainingShare loop.state.positions entry =
        entry.share := by
  obtain ⟨now, htrace⟩ := reaches_trace h
  obtain ⟨hidentified, hbalanced, _⟩ := htrace.balanced hexact
  exact ⟨hbalanced.cash, hidentified.unique, hidentified.position, hidentified.exit,
    hbalanced.shares⟩

/-- At the end of the run with a collapse, the whole entry has been sold. -/
theorem books_balance_crash :
    ∃ loop : Loop, crash.Reaches loop ∧ loop.state.cash = -(11 / 20) ∧
      10 + (loop.state.exits.map (·.netPnl)).sum =
        loop.state.cash + loop.state.positions.total fun _ position => position.cost := by
  obtain ⟨last, hlast, hcash⟩ := exists_ok_of_check (x := crash.runLoop)
    (P := fun last => last.2.state.cash = -(11 / 20)) (by decide +kernel)
  have hreaches := reaches_end hlast
  exact ⟨last.2, hreaches, hcash, (books_balance rfl hreaches).1⟩

end KAssetTrader.Backtest
