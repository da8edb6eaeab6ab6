import KAssetTrader.Library.Transition
import KAssetTrader.Tape.Naive

/-!
The cumulative counters of buyers and sellers in a window. A frame is compared
with the frame before it only, so a counter that falls while frames do not carry
it is not seen to fall. The known values of a counter rise along the window when
every counter that comes back is compared with its last known value as well.
-/

namespace KAssetTrader.Tape

open TapeWindow Transition

inductive Side where
  | buy
  | sell
  deriving DecidableEq

instance : Fintype Side := ⟨{.buy, .sell}, by rintro ⟨⟩ <;> decide⟩

def Side.volume : Side → TradeSample → Option ℤ
  | .buy, sample => sample.cumulativeBuyVolume
  | .sell, sample => sample.cumulativeSellVolume

def Side.choose {α : Type*} : Side → α → α → α
  | .buy, bought, _ => bought
  | .sell, _, sold => sold

def TapeSnapshot.volumeDelta (snapshot : TapeSnapshot) (side : Side) : Option ℤ :=
  side.choose snapshot.buyVolumeDelta snapshot.sellVolumeDelta

variable {counter : TradeSample → Option ℤ}

section Known

def known (counter : TradeSample → Option ℤ) (trades : List TradeSample) : List ℤ :=
  trades.filterMap counter

/-- The known values of a counter never fall. -/
def Rising (counter : TradeSample → Option ℤ) (trades : List TradeSample) : Prop :=
  (known counter trades).Pairwise (· ≤ ·)

/-- A counter that the last trade lacks comes back at its last known value or
above it. -/
def ComesBack (counter : TradeSample → Option ℤ) (trades : List TradeSample)
    (sample : TradeSample) : Prop :=
  ∀ last ∈ trades.getLast?, counter last = none →
    ∀ before ∈ (known counter trades).getLast?, ∀ value ∈ counter sample, before ≤ value

instance (counter : TradeSample → Option ℤ) (trades : List TradeSample) (sample : TradeSample) :
    Decidable (ComesBack counter trades sample) :=
  inferInstanceAs (Decidable (∀ last ∈ trades.getLast?, _))

variable {trades kept : List TradeSample} {sample : TradeSample}

theorem Rising.sublist (h : Rising counter trades) (hkept : kept.Sublist trades) :
    Rising counter kept :=
  List.Pairwise.sublist (hkept.filterMap counter) h

/-- A trade that is not below the last one, nor below the last known value
after a gap, keeps the counter rising. -/
theorem Rising.append (h : Rising counter trades)
    (hlast : ∀ last ∈ trades.getLast?, counterWentBackwards (counter last) (counter sample) = false)
    (hback : ComesBack counter trades sample) : Rising counter (trades ++ [sample]) := by
  unfold Rising known
  rw [List.filterMap_append]
  cases hvalue : counter sample with
  | none => simpa [Rising, known, hvalue] using h
  | some value =>
    have hsingle : List.filterMap counter [sample] = [value] := by simp [hvalue]
    rw [hsingle]
    apply List.pairwise_append.mpr
    refine ⟨h, List.pairwise_singleton _ _, ?_⟩
    intro before hbefore value' hvalue'
    obtain rfl := List.mem_singleton.mp hvalue'
    have hne : known counter trades ≠ [] := List.ne_nil_of_mem hbefore
    have hsome := List.getLast?_eq_some_getLast hne
    have hle : before ≤ (known counter trades).getLast hne := h.rel_getLast hbefore
    apply hle.trans
    rcases List.eq_nil_or_concat' trades with rfl | ⟨front, last, rfl⟩
    · exact absurd rfl hne
    · have hmem : last ∈ (front ++ [last]).getLast? := by simp
      cases hcarried : counter last with
      | none => exact hback last hmem hcarried _ hsome value' hvalue
      | some previous =>
        have hnot := hlast last hmem
        have hprevious : (known counter (front ++ [last])).getLast hne = previous := by
          have hend : known counter (front ++ [last]) = known counter front ++ [previous] := by
            simp [known, hcarried]
          simp [hend]
        rw [hprevious]
        simpa [counterWentBackwards, hcarried, hvalue] using hnot

end Known

variable {s : TapeWindow × Accepted} {w : TapeWindow}

section Run

variable (ctx : Decimal.Context)

def step (s : TapeWindow × Accepted) (frame : Frame) : Option (TapeWindow × Accepted) :=
  let fed := s.1.feed ctx frame
  some (fed.1, s.2.record ctx s.1 fed.1 frame fed.2)

def Fresh (s : TapeWindow × Accepted) : Prop :=
  ∃ symbol config, s = ({ symbol, config }, {})

/-- Both counters of an accepted trade that come back after a gap do so at
their last known value in the window or above it. -/
def GapsRise (s : TapeWindow × Accepted) : Frame → Prop
  | .book _ => True
  | .trade tick =>
    match tick.receivedAt with
    | .naive _ => True
    | .aware receivedAt =>
      (s.1.feed ctx (.trade tick)).2 = true →
        ∀ side : Side, ComesBack side.volume (s.1.enterSession receivedAt).trades
          (tick.sample receivedAt)

instance (s : TapeWindow × Accepted) (frame : Frame) : Decidable (GapsRise ctx s frame) := by
  unfold GapsRise
  split
  · exact inferInstance
  · split
    · exact inferInstance
    · exact inferInstance

def TapeWindow.sinceBaseline (w : TapeWindow) (now : Instant) : List TradeSample :=
  let newer := w.trades.reverse.takeWhile fun s => decide (w.horizon now < s.receivedAt)
  w.trades.drop (w.trades.length - (newer.length + 1))

variable {ctx}

variable {tick : TradeTick} {w' : TapeWindow}

theorem onTrade_accepted (h : w.onTrade tick = .ok (w', true)) :
    ∃ receivedAt, tick.receivedAt = .aware receivedAt ∧
      ((∃ reason, w' = ((w.enterSession receivedAt).reset reason).addTrade
        (tick.sample receivedAt)) ∨
      (w' = (w.enterSession receivedAt).addTrade (tick.sample receivedAt) ∧
        ∀ previous ∈ (w.enterSession receivedAt).lastTrade, ∀ side : Side,
          counterWentBackwards (side.volume previous) (side.volume (tick.sample receivedAt)) =
            false)) := by
  unfold onTrade at h
  split at h
  · cases h
  next receivedAt haware =>
    refine ⟨receivedAt, haware, ?_⟩
    split_ifs at h with hforeign hskewed
    · cases h
    · cases h
    dsimp only at h
    split at h
    next hnone =>
      right
      cases h
      refine ⟨rfl, ?_⟩
      intro previous hprevious
      rw [hnone] at hprevious
      cases hprevious
    next previous hprevious =>
      split_ifs at h with hbefore hsmaller hequal hbackwards
      · cases h
      · cases h
      · cases h
      · left
        cases h
        exact ⟨_, rfl⟩
      · right
        cases h
        refine ⟨rfl, ?_⟩
        intro last hlast side
        rw [hprevious] at hlast
        obtain rfl := Option.mem_some_iff.mp hlast
        simp only [Bool.or_eq_true, not_or, Bool.not_eq_true] at hbackwards
        cases side with
        | buy => exact hbackwards.1
        | sell => exact hbackwards.2

/-- What holds of the window and its log while counters come back from gaps at
their last known values or above them. -/
structure CountersKept (s : TapeWindow × Accepted) : Prop where
  tracks : Tracks s.1 s.2
  rising : ∀ side : Side, Rising side.volume s.1.trades

theorem trimBaseline_suffix (horizon : Instant) (trades : List TradeSample) :
    Window.trimBaseline (·.receivedAt) horizon trades <:+ trades := by
  induction trades with
  | nil => exact List.suffix_rfl
  | cons first rest ih =>
    cases rest with
    | nil => exact List.suffix_rfl
    | cons second rest =>
      unfold Window.trimBaseline
      split
      · exact ih.trans (List.suffix_cons _ _)
      · exact List.suffix_rfl

variable {log : Accepted} {frame : Frame}

theorem Tracks.getLast?_eq (h : Tracks w log) :
    w.lastTrade = w.trades.getLast? := by
  rw [h.lastTrade]
  obtain ⟨dropped, hlog, hfirst⟩ := h.trades.dropped
  rw [hlog, List.getLast?_append]
  cases hkept : w.trades with
  | nil =>
    have hempty : dropped = [] := by
      by_contra hne
      obtain ⟨first, hin, -⟩ := hfirst hne
      rw [hkept] at hin
      cases hin
    simp [hempty]
  | cons first rest =>
    rw [List.getLast?_eq_some_getLast (List.cons_ne_nil _ _), Option.some_or]

theorem Tracks.suffix (h : Tracks w log) : w.trades <:+ log.trades := by
  obtain ⟨dropped, hlog, -⟩ := h.trades.dropped
  exact ⟨dropped, hlog.symm⟩

theorem Rising.addTrade {sample : TradeSample} (h : Rising counter w.trades)
    (hlast : ∀ last ∈ w.trades.getLast?, counterWentBackwards (counter last) (counter sample) =
      false) (hback : ComesBack counter w.trades sample) :
    Rising counter (w.addTrade sample).trades :=
  (h.append hlast hback).sublist (trimBaseline_suffix _ _).sublist

theorem enterSession_trades (w : TapeWindow) (receivedAt : Instant) :
    (w.enterSession receivedAt).trades = w.trades ∨ (w.enterSession receivedAt).trades = [] := by
  unfold enterSession
  dsimp only
  split
  · exact .inl rfl
  · split
    · exact .inr rfl
    · exact .inl rfl

theorem Rising.enterSession (h : Rising counter w.trades) (receivedAt : Instant) :
    Rising counter (w.enterSession receivedAt).trades := by
  rcases enterSession_trades w receivedAt with heq | hnil
  · rwa [heq]
  · rw [hnil]
    exact List.Pairwise.nil

theorem Moves.rising {accepted : Bool} (hmove : Moves ctx w frame w' accepted)
    (htrade : ∀ tick, frame = .trade tick → accepted = false) (h : Rising counter w.trades) :
    Rising counter w'.trades := by
  cases hmove with
  | dropped => exact h
  | late receivedAt => exact h.enterSession receivedAt
  | trade hframe haware hlater => cases htrade _ hframe
  | restart reason hframe haware => cases htrade _ hframe
  | book hframe haware =>
    exact (h.enterSession _).sublist (trimBaseline_suffix _ _).sublist

theorem feed_book_rising {tick : BookTick} (h : Rising counter w.trades) :
    Rising counter (w.feed ctx (.book tick)).1.trades := by
  unfold feed
  dsimp only
  split
  next result hfed =>
    apply (onBook_moves hfed).rising _ h
    intro tick htick
    cases htick
  · exact h

/-- A trade keeps the counters rising when those that come back after a gap do
so at their last known values or above them. -/
theorem feed_trade_rising (h : CountersKept s) (hgaps : GapsRise ctx s (.trade tick)) (side : Side)
    :
    Rising side.volume (s.1.feed ctx (.trade tick)).1.trades := by
  cases hfed : s.1.onTrade tick with
  | error e => simpa [feed, hfed] using h.rising side
  | ok result =>
    obtain ⟨w', accepted⟩ := result
    have hresult : s.1.feed ctx (.trade tick) = (w', accepted) := by
      simp [feed, hfed]
    rw [hresult]
    cases accepted with
    | false =>
      have hmove : Moves ctx s.1 (.trade tick) w' false := onTrade_moves hfed
      exact hmove.rising (fun _ _ => rfl) (h.rising side)
    | true =>
      obtain ⟨receivedAt, haware, hkept⟩ := onTrade_accepted hfed
      rcases hkept with ⟨reason, rfl⟩ | ⟨rfl, hforward⟩
      · have hempty : Rising side.volume
            ((s.1.enterSession receivedAt).reset reason).trades := List.Pairwise.nil
        apply hempty.addTrade
        · intro last hmem
          cases hmem
        · intro last hmem
          cases hmem
      · have htracks := h.tracks.enterSession receivedAt
        apply ((h.rising side).enterSession receivedAt).addTrade
        · intro last hmem
          rw [← htracks.getLast?_eq] at hmem
          exact hforward last hmem side
        · simp only [GapsRise, haware] at hgaps
          exact hgaps (by rw [hresult]) side

/-- A counter that does not fall across a gap keeps the sums of the window. -/
theorem CountersKept.step {t : TapeWindow × Accepted} (h : CountersKept s)
    (hgaps : GapsRise ctx s frame) (hstep : step ctx s frame = some t) : CountersKept t := by
  cases hstep
  refine ⟨feed_tracks h.tracks frame, ?_⟩
  intro side
  cases frame with
  | trade tick => exact feed_trade_rising h hgaps side
  | book tick => exact feed_book_rising (h.rising side)

theorem CountersKept.start (hstart : Fresh s) : CountersKept s := by
  obtain ⟨symbol, config, rfl⟩ := hstart
  refine ⟨.empty ⟨rfl, rfl⟩ ⟨rfl, rfl⟩ ⟨rfl, rfl⟩, ?_⟩
  intro side
  exact List.Pairwise.nil

end Run

variable {ctx : Decimal.Context} {now : Instant}

theorem sinceBaseline_suffix (w : TapeWindow) (now : Instant) :
    w.sinceBaseline now <:+ w.trades :=
  List.drop_suffix _ _

theorem head?_sinceBaseline (w : TapeWindow) (now : Instant) :
    (w.sinceBaseline now).head? =
      (w.trades.reverse.find? fun s => decide (s.receivedAt ≤ w.horizon now)).or
        w.trades.head? := by
  unfold sinceBaseline
  dsimp only
  set newest := w.trades.reverse with hnewest
  set newer := newest.takeWhile fun s => decide (w.horizon now < s.receivedAt) with hnewer
  have hdrop : w.trades.drop (w.trades.length - (newer.length + 1)) =
      (newest.take (newer.length + 1)).reverse := by
    rw [hnewest, List.take_reverse, List.reverse_reverse]
  have hsplit : newer ++ (newest.dropWhile fun s => decide (w.horizon now < s.receivedAt)) =
      newest := List.takeWhile_append_dropWhile
  have hfind : newer.find? (fun s => decide (s.receivedAt ≤ w.horizon now)) = none := by
    rw [List.find?_eq_none]
    intro sample hsample
    have hlater := List.mem_takeWhile_imp hsample
    simpa using hlater
  rw [hdrop, List.head?_reverse, ← hsplit]
  cases hrest : newest.dropWhile fun s => decide (w.horizon now < s.receivedAt) with
  | nil =>
    have hfirst : w.trades.head? = newer.getLast? := by
      rw [← List.reverse_reverse w.trades, ← hnewest, ← hsplit, hrest]
      simp
    simp [hfind, hfirst, List.take_of_length_le]
  | cons baseline older =>
    have hle : baseline.receivedAt ≤ w.horizon now := by
      have hhead := List.head?_dropWhile_not (fun s => decide (w.horizon now < s.receivedAt)) newest
      rw [hrest] at hhead
      simpa using hhead
    have htake : (newer ++ baseline :: older).take (newer.length + 1) = newer ++ [baseline] := by
      simp [List.take_append]
    simp [htake, List.find?_append, hfind, hle]

theorem getLast?_sinceBaseline (w : TapeWindow) (now : Instant) :
    (w.sinceBaseline now).getLast? = w.trades.getLast? := by
  unfold sinceBaseline
  dsimp only
  rw [List.getLast?_drop]
  split
  next hle =>
    have hnil : w.trades = [] := by
      rw [← List.length_eq_zero_iff]
      omega
    simp [hnil]
  · rfl

theorem volumePower_reported {baseline last : Option TradeSample}
    {power : VolumePowerState × Option Decimal × Option ℤ × Option ℤ}
    (hpower : volumePower ctx baseline last = .ok power) (h : power.1 ≠ .unavailable) :
    ∃ first ∈ baseline, ∃ final ∈ last, ∀ side : Side,
      ∃ before ∈ side.volume first, ∃ after ∈ side.volume final,
        side.choose power.2.2.1 power.2.2.2 = some (after - before) := by
  unfold volumePower at hpower
  split at hpower
  swap
  · cases hpower
    exact absurd rfl h
  next first final =>
  split at hpower
  swap
  · cases hpower
    exact absurd rfl h
  next firstBuy firstSell lastBuy lastSell hfirstBuy hfirstSell hlastBuy hlastSell =>
  refine ⟨first, rfl, final, rfl, ?_⟩
  have hdeltas : power.2.2 = (some (lastBuy - firstBuy), some (lastSell - firstSell)) := by
    dsimp only at hpower
    split_ifs at hpower
    · cases hpower
      rfl
    · cases hpower
      rfl
    · cases hpower
      rfl
    · obtain ⟨ratio, -, hpower⟩ := Checked.bind_ok_iff.mp hpower
      cases hpower
      rfl
  rw [hdeltas]
  rintro ⟨⟩
  · exact ⟨firstBuy, hfirstBuy, lastBuy, hlastBuy, rfl⟩
  · exact ⟨firstSell, hfirstSell, lastSell, hlastSell, rfl⟩

/-- The flow of a snapshot is the volume power from the baseline to the last trade. -/
theorem snapshot_power {w : TapeWindow} {snapshot : TapeSnapshot}
    (h : w.snapshot ctx now = .ok snapshot) :
    ∃ power, volumePower ctx
        ((w.trades.reverse.find? fun s => decide (s.receivedAt ≤ w.horizon now)).or
          w.trades.head?) w.lastTrade = .ok power ∧
      snapshot.volumePowerState = power.1 ∧ snapshot.buyVolumeDelta = power.2.2.1 ∧
      snapshot.sellVolumeDelta = power.2.2.2 := by
  obtain ⟨power, hpower, h⟩ := Checked.bind_ok_iff.mp h
  obtain ⟨spread, -, h⟩ := Checked.bind_ok_iff.mp h
  cases h
  exact ⟨power, hpower, rfl, rfl, rfl⟩

/-- A reported volume power measures both counters from the baseline to the last
accepted trade, and along those trades neither counter is known to fall. -/
structure CountersSound (ctx : Decimal.Context) (s : TapeWindow × Accepted) (now : Instant) :
    Prop where
  accepted : s.1.sinceBaseline now <:+ s.2.trades
  measured : ∀ snapshot, s.1.snapshot ctx now = .ok snapshot →
    snapshot.volumePowerState ≠ .unavailable →
    ∃ baseline ∈ (s.1.sinceBaseline now).head?, ∃ last ∈ (s.1.sinceBaseline now).getLast?,
      ∀ side : Side, ∃ before ∈ side.volume baseline, ∃ after ∈ side.volume last,
        snapshot.volumeDelta side = some (after - before)
  rising : ∀ snapshot, s.1.snapshot ctx now = .ok snapshot →
    snapshot.volumePowerState ≠ .unavailable →
    ∀ side : Side, Rising side.volume (s.1.sinceBaseline now)

/-- In every run whose counters come back from gaps at their last known values
or above them, no snapshot reports a volume power across a counter that fell. -/
theorem reported_counters_rise (ctx : Decimal.Context) (s : TapeWindow × Accepted)
    (h : ReachableVia Fresh (step ctx) (GapsRise ctx) s) (now : Instant) :
    CountersSound ctx s now := by
  have hkept : CountersKept s :=
    invariant (fun _ hstart => .start hstart) (fun _ _ _ hkept hgaps hstep =>
      hkept.step hgaps hstep) h
  have hsuffix := sinceBaseline_suffix s.1 now
  refine ⟨hsuffix.trans hkept.tracks.suffix, ?_, ?_⟩
  · intro snapshot hsnapshot hreported
    have hbaseline := head?_sinceBaseline s.1 now
    have hlast := (getLast?_sinceBaseline s.1 now).trans hkept.tracks.getLast?_eq.symm
    obtain ⟨power, hpower, hstate, hbuy, hsell⟩ := snapshot_power hsnapshot
    rw [hbaseline, hlast]
    simp only [TapeSnapshot.volumeDelta, hbuy, hsell]
    exact volumePower_reported hpower (hstate ▸ hreported)
  · intro _ _ _ side
    exact (hkept.rising side).sublist hsuffix.sublist

/-- A trade some seconds after nine in the morning, with or without its
counters. -/
def countedAt (second volume : ℤ) (buy sell : Option ℤ) : Frame :=
  .trade ⟨"005930", .aware (seconds second), seconds (9 * 3600 + second), 100, volume, buy, sell,
    some 100⟩

/-- A trade without counters, between counters that rise. -/
theorem reported_counters_rise_gap : ∃ s, ReachableVia Fresh (step .exact) (GapsRise .exact) s ∧
    (∃ snapshot, s.1.snapshot .exact (seconds 4) = .ok snapshot ∧
      snapshot.volumePowerState = .ratio) ∧
    CountersSound .exact s (seconds 4) := by
  let start : TapeWindow × Accepted := ({ symbol := "005930" }, {})
  let frames := [countedAt 1 100 (some 10) (some 10), countedAt 2 110 none none,
    countedAt 3 120 (some 50) (some 30)]
  have hstart : ReachableVia Fresh (step .exact) (GapsRise .exact) start :=
    .start ⟨_, _, rfl⟩
  obtain ⟨s, hrun⟩ : ∃ s, run (step .exact) start frames = some s := ⟨_, rfl⟩
  have hreached : ReachableVia Fresh (step .exact) (GapsRise .exact) s :=
    hstart.run (by decide +kernel) hrun
  refine ⟨s, hreached, ?_, reported_counters_rise .exact s hreached (seconds 4)⟩
  cases hrun
  exact Checked.exists_ok_of_check (by decide +kernel)

/-- A counter that falls while a frame lacks it is reported as a volume. -/
theorem counter_reset_hidden_by_gap : ∃ s now snapshot, Reachable Fresh (step .exact) s ∧
    s.1.snapshot .exact now = .ok snapshot ∧ snapshot.volumePowerState = .ratio ∧
    snapshot.volumeDelta .buy = some 40 ∧
    known Side.buy.volume (s.1.sinceBaseline now) = [10, 100, 50] ∧
    ¬ CountersSound .exact s now := by
  let start : TapeWindow × Accepted := ({ symbol := "005930" }, {})
  let frames := [countedAt 1 100 (some 10) (some 10), countedAt 2 110 (some 100) (some 20),
    countedAt 3 120 none none, countedAt 4 130 (some 50) (some 30)]
  obtain ⟨s, hrun⟩ : ∃ s, run (step .exact) start frames = some s := ⟨_, rfl⟩
  have hreported : ∃ snapshot, s.1.snapshot .exact (seconds 5) = .ok snapshot ∧
      snapshot.volumePowerState = .ratio ∧ snapshot.volumeDelta .buy = some 40 := by
    cases hrun
    exact Checked.exists_ok_of_check (by decide +kernel)
  have hknown : known Side.buy.volume (s.1.sinceBaseline (seconds 5)) = [10, 100, 50] := by
    cases hrun
    decide +kernel
  obtain ⟨snapshot, hsnapshot, hratio, hdelta⟩ := hreported
  refine ⟨s, seconds 5, snapshot,
    reachable_of_run (show Fresh start from ⟨_, _, rfl⟩) hrun, hsnapshot, hratio, hdelta,
    hknown, ?_⟩
  intro hsound
  have hrising := hsound.rising snapshot hsnapshot (by rw [hratio]; decide) .buy
  rw [Rising, hknown] at hrising
  revert hrising
  decide

end KAssetTrader.Tape
