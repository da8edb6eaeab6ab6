import KAssetTrader.Issuer.Moves

/-!
The issuer rule over every interleaving of executions. It holds as long as no
approved execution counts while another one of the issuer is between its count
and its order, and no automated order of the issuer is still pending then.
Sweeps are kept apart by the lock; approvals are not.
-/

namespace KAssetTrader.Issuer

open Paper Position

variable (days : TradingDays)

def Execution.Rivals (a b : Execution) : Prop :=
  a.request.side = .buy ∧ b.request.side = .buy ∧ SameIssuer a.listing b.listing

/-- A count of a buy overlaps no check of the issuer that an approval makes or
is part of, and finds no automated order of the issuer pending. -/
def CountsApart (w : World) : Action → Prop
  | .execution i .count => ∀ run, w.executions i = .claimed run → run.request.side = .buy →
      (∀ j other, j ≠ i → (w.executions j).checking = some other → run.Rivals other →
        run.entry = .scheduled ∧ other.entry = .scheduled) ∧
      ∀ order, w.Open order → ¬ SameIssuer order.listing run.listing
  | _ => True

/-- A buy is of another issuer than a listing, or of an earlier day. -/
def Before (buy : AutomatedBuy) (listing : Listing) (now : Instant) : Prop :=
  SameIssuer buy.listing listing → buy.createdAt < days.start listing.1 now

structure RuleKept (w : World) : Prop where
  positive : w.Positive
  locked : w.Locked
  counted : ∀ i run counts, w.executions i = .counted run counts → run.request.side = .buy →
    counts.sameIssuerHeld = 0 → w.Free run.listing
  approved : ∀ i run, w.executions i = .approved run → run.request.side = .buy →
    w.Free run.listing ∧ ∀ buy ∈ w.autoBuys, Before days buy run.listing run.now
  apart : ∀ i j a b, i ≠ j → (w.executions i).checking = some a →
    (w.executions j).checking = some b → ¬ a.Rivals b
  openFree : ∀ order, w.Open order → ∀ listing, w.AutoHeld listing →
    ¬ SameIssuer listing order.listing
  openSingle : ∀ a b, w.Open a → w.Open b → SameIssuer a.listing b.listing → a = b
  heldSingle : ∀ a b, w.AutoHeld a → w.AutoHeld b → SameIssuer a b → a = b
  dated : w.autoBuys.Pairwise fun a b => Before days a b.listing b.createdAt

variable {days} {w t : World} {i : ℕ} {p phase : Phase} {run : Execution}

theorem Execution.Rivals.symm {a b : Execution} (h : a.Rivals b) : b.Rivals a :=
  ⟨h.2.1, h.1, h.2.2.symm⟩

theorem Phase.run_of_checking (h : p.checking = some run) : p.run = some run := by
  cases p with
  | counted other counts => exact h
  | approved other => exact h
  | _ => cases h

theorem World.Free.mono {listing : Listing} (h : w.Free listing)
    (hopens : ∀ order, t.Open order → w.Open order)
    (hheld : ∀ other, t.AutoHeld other → w.AutoHeld other) : t.Free listing :=
  ⟨fun order hopen => h.orders order (hopens order hopen),
    fun other hauto => h.held other (hheld other hauto)⟩

theorem Frame.locked (h : Frame w t i phase) (hlocked : w.Locked) : t.Locked := by
  intro j run hrun hscheduled
  rw [h.executions] at hrun
  by_cases hj : j = i
  · subst hj
    rw [Function.update_self] at hrun
    exact h.lock run hrun hscheduled
  · rw [Function.update_of_ne hj] at hrun
    exact h.others j hj (hlocked j run hrun hscheduled)

theorem Frame.checking_of_ne (h : Frame w t i phase) (hphase : phase.checking = none) {j : ℕ}
    {other : Execution} (hother : (t.executions j).checking = some other) :
    j ≠ i ∧ t.executions j = w.executions j := by
  rw [h.executions] at hother ⊢
  by_cases hj : j = i
  · subst hj
    rw [Function.update_self, hphase] at hother
    cases hother
  · exact ⟨hj, Function.update_of_ne hj _ _⟩

theorem RuleKept.quiet (h : RuleKept days w) (hquiet : Quiet w t) (hlocked : t.Locked)
    (hchecking : ∀ j run, (t.executions j).checking = some run →
      t.executions j = w.executions j) : RuleKept days t := by
  have hheld (listing : Listing) (hauto : t.AutoHeld listing) : w.AutoHeld listing := by
    obtain ⟨position, hposition, hauto⟩ := hauto
    exact (hquiet.held listing position hposition).2 hauto
  have hsame {j : ℕ} {p : Phase} (hj : t.executions j = p) {run : Execution}
      (hrun : p.checking = some run) : w.executions j = p :=
    (hchecking j run (hj ▸ hrun)).symm.trans hj
  constructor
  · exact hquiet.positive h.positive
  · exact hlocked
  · intro j run counts hj hbuy hnone
    exact (h.counted j run counts (hsame hj rfl) hbuy hnone).mono hquiet.opens hheld
  · intro j run hj hbuy
    obtain ⟨hfree, hdates⟩ := h.approved j run (hsame hj rfl) hbuy
    exact ⟨hfree.mono hquiet.opens hheld, hquiet.buys ▸ hdates⟩
  · intro j k a b hne ha hb
    rw [hchecking j a ha] at ha
    rw [hchecking k b hb] at hb
    exact h.apart j k a b hne ha hb
  · intro order hopen listing hauto
    exact h.openFree order (hquiet.opens order hopen) listing (hheld listing hauto)
  · intro a b ha hb
    exact h.openSingle a b (hquiet.opens a ha) (hquiet.opens b hb)
  · intro a b ha hb
    exact h.heldSingle a b (hheld a ha) (hheld b hb)
  · rw [hquiet.buys]
    exact h.dated

theorem not_autoHeld_of_count (hpositive : w.Positive) {listing : Listing}
    (hcount : w.sameIssuerHeld listing = 0) (other : Listing) (hauto : w.AutoHeld other) :
    ¬ SameIssuer other listing := by
  intro hsame
  obtain ⟨position, hposition, -⟩ := hauto
  have hmem := w.positions.get?_eq_some.mp hposition
  refine List.countP_eq_zero.mp hcount _ hmem ?_
  obtain ⟨hmarket, hfilter⟩ := hsame
  simp only [decide_eq_true_eq]
  exact ⟨hmarket, hpositive other position hposition, hmarket ▸ hfilter⟩

theorem dated_of_count {run : Execution}
    (hcount : w.buysSince run.request.market (days.start run.request.market run.now)
      (issuerSymbolFilter · (marketText run.request.market) run.request.symbol) = 0)
    (buy : AutomatedBuy) (hbuy : buy ∈ w.autoBuys) : Before days buy run.listing run.now := by
  intro hsame
  obtain ⟨order, hmem, rfl⟩ := List.mem_map.mp hbuy
  obtain ⟨horder, hauto⟩ := List.mem_filter.mp hmem
  by_contra hlate
  refine List.countP_eq_zero.mp hcount order horder ?_
  obtain ⟨hmarket, hfilter⟩ := hsame
  have hmarket : order.market = run.request.market := hmarket
  simp only [decide_eq_true_eq]
  refine ⟨hmarket, ?_, (of_decide_eq_true hauto).2, not_lt.mp hlate⟩
  rw [← hmarket]
  exact hfilter

theorem Frame.at_self (h : Frame w t i phase) : t.executions i = phase := by
  rw [h.executions, Function.update_self]

theorem Frame.of_ne (h : Frame w t i phase) {j : ℕ} (hj : j ≠ i) :
    t.executions j = w.executions j := by
  rw [h.executions, Function.update_of_ne hj]

/-- Checks stay apart when the one that a step begins rivals none under way. -/
theorem RuleKept.apart_step (h : RuleKept days w) (hframe : Frame w t i phase)
    (hnew : ∀ run, phase.checking = some run → ∀ j other, j ≠ i →
      (w.executions j).checking = some other → ¬ run.Rivals other) :
    ∀ j k a b, j ≠ k → (t.executions j).checking = some a →
      (t.executions k).checking = some b → ¬ a.Rivals b := by
  intro j k a b hne ha hb
  by_cases hj : j = i
  · subst hj
    rw [hframe.at_self] at ha
    rw [hframe.of_ne hne.symm] at hb
    exact hnew a ha k b hne.symm hb
  rw [hframe.of_ne hj] at ha
  by_cases hk : k = i
  · subst hk
    rw [hframe.at_self] at hb
    intro hrivals
    exact hnew b hb j a hj ha hrivals.symm
  · rw [hframe.of_ne hk] at hb
    exact h.apart j k a b hne ha hb

structure SameTables (w t : World) : Prop where
  orders : t.orders = w.orders
  trades : t.trades = w.trades
  positions : t.positions = w.positions

theorem SameTables.opens (h : SameTables w t) (order : PaperOrder) (hopen : t.Open order) :
    w.Open order :=
  ⟨h.orders ▸ hopen.mem, hopen.autoBuy, hopen.pending, h.trades ▸ hopen.untraded⟩

theorem SameTables.held (h : SameTables w t) (listing : Listing) (hauto : t.AutoHeld listing) :
    w.AutoHeld listing := by
  rwa [World.AutoHeld, h.positions] at hauto

theorem SameTables.buys (h : SameTables w t) : t.autoBuys = w.autoBuys := by
  rw [World.autoBuys, h.orders, World.autoBuys]

variable (h : RuleKept days w)
include h

theorem RuleKept.check (hframe : Frame w t i phase) (hsame : SameTables w t)
    (hcounted : ∀ run counts, phase = .counted run counts → run.request.side = .buy →
      counts.sameIssuerHeld = 0 → w.Free run.listing)
    (happroved : ∀ run, phase = .approved run → run.request.side = .buy → w.Free run.listing ∧ ∀
      buy ∈ w.autoBuys, Before days buy run.listing run.now)
    (hnew : ∀ run, phase.checking = some run → ∀ j other, j ≠ i → (w.executions j).checking = some
      other → ¬ run.Rivals other) : RuleKept days t := by
  constructor
  · intro listing position hposition
    exact h.positive listing position (hsame.positions ▸ hposition)
  · exact hframe.locked h.locked
  · intro j run counts hj hbuy hnone
    refine World.Free.mono ?_ hsame.opens hsame.held
    by_cases hji : j = i
    · subst hji
      exact hcounted run counts (hframe.at_self.symm.trans hj) hbuy hnone
    · exact h.counted j run counts (hframe.of_ne hji ▸ hj) hbuy hnone
  · intro j run hj hbuy
    have hold : w.Free run.listing ∧
        ∀ buy ∈ w.autoBuys, Before days buy run.listing run.now := by
      by_cases hji : j = i
      · subst hji
        exact happroved run (hframe.at_self.symm.trans hj) hbuy
      · exact h.approved j run (hframe.of_ne hji ▸ hj) hbuy
    exact ⟨hold.1.mono hsame.opens hsame.held, hsame.buys ▸ hold.2⟩
  · exact h.apart_step hframe hnew
  · intro order hopen listing hauto
    exact h.openFree order (hsame.opens order hopen) listing (hsame.held listing hauto)
  · intro a b ha hb
    exact h.openSingle a b (hsame.opens a ha) (hsame.opens b hb)
  · intro a b ha hb
    exact h.heldSingle a b (hsame.held a ha) (hsame.held b hb)
  · rw [hsame.buys]
    exact h.dated

theorem RuleKept.count (hi : w.executions i = .claimed run)
    (hframe : Frame w t i (.counted run (countsOf days w run))) (hsame : SameTables w t)
    (happart : CountsApart w (.execution i .count)) : RuleKept days t := by
  apply h.check hframe hsame
  · intro other counts hphase hbuy hnone
    obtain ⟨rfl, rfl⟩ := Phase.counted.inj hphase
    obtain ⟨-, hopen⟩ := happart run hi hbuy
    simp only [countsOf, if_pos hbuy] at hnone
    exact ⟨hopen, not_autoHeld_of_count h.positive hnone⟩
  · rintro _ ⟨⟩
  · intro other hother j rival hj hrival hrivals
    cases hother
    obtain ⟨hclear, -⟩ := happart run hi hrivals.1
    obtain ⟨hscheduled, hscheduled'⟩ := hclear j rival hj hrival hrivals
    have hrun : (w.executions i).run = some run := by
      rw [hi]
      rfl
    have hlock := h.locked i run hrun hscheduled
    have hlock' := h.locked j rival (Phase.run_of_checking hrival) hscheduled'
    exact hj (Option.some.inj (hlock'.symm.trans hlock))

theorem RuleKept.approve {counts : Counts} {inputs : Inputs}
    (hi : w.executions i = .counted run counts) (hframe : Frame w t i (.approved run))
    (hsame : SameTables w t) (hpassed : (judged days w run counts inputs).passed = true) :
    RuleKept days t := by
  apply h.check hframe hsame
  · nofun
  · intro other hphase hbuy
    obtain rfl := Phase.approved.inj hphase
    obtain ⟨-, hheld, hbuys⟩ := evaluateHardRisk_buy hpassed hbuy
    simp only [readsOf, if_pos hbuy] at hheld hbuys
    exact ⟨h.counted i run counts hi hbuy hheld, dated_of_count hbuys⟩
  · intro other hother j rival hj hrival
    cases hother
    apply h.apart i j run rival hj.symm _ hrival
    rw [hi]
    rfl

/-- An execution that passed the policy keeps the rule when it places its order. -/
theorem RuleKept.place {orderId : String} {createdAt : Instant}
    (hi : w.executions i = .approved run) (hframe : Frame w t i (.placed run orderId))
    (horders : t.orders = w.orders ++ [newOrder run orderId createdAt])
    (htrades : t.trades = w.trades) (hpositions : t.positions = w.positions)
    (hnow : run.now ≤ createdAt) : RuleKept days t := by
  have hcases (order : PaperOrder) (hopen : t.Open order) :
      w.Open order ∨ order = newOrder run orderId createdAt := by
    have hmem := hopen.mem
    rw [horders] at hmem
    rcases List.mem_append.mp hmem with hold | hnew
    · exact .inl ⟨hold, hopen.autoBuy, hopen.pending, htrades ▸ hopen.untraded⟩
    · exact .inr (List.mem_singleton.mp hnew)
  have hheld (listing : Listing) (hauto : t.AutoHeld listing) : w.AutoHeld listing := by
    rwa [World.AutoHeld, hpositions] at hauto
  by_cases hbuy : run.request.side = .buy
  swap
  · -- A sell is nothing that the rule is about.
    refine h.quiet ⟨?_, ?_, ?_⟩ (hframe.locked h.locked)
      (fun j other hother => (hframe.checking_of_ne rfl hother).2)
    · have hnot : ¬ (newOrder run orderId createdAt).AutoBuy := fun hauto => hbuy hauto.2
      rw [World.autoBuys_append horders, if_neg hnot, List.append_nil]
    · intro order hopen
      rcases hcases order hopen with hold | rfl
      · exact hold
      · exact absurd hopen.autoBuy.2 hbuy
    · intro listing position hposition
      rw [hpositions] at hposition
      exact ⟨.inr hposition, fun hauto => ⟨position, hposition, hauto⟩⟩
  obtain ⟨hfree, hdates⟩ := h.approved i run hi hbuy
  have hnew : (newOrder run orderId createdAt).AutoBuy := ⟨rfl, hbuy⟩
  have hbuys : t.autoBuys = w.autoBuys ++ [⟨run.listing, createdAt, some run.entry⟩] := by
    rw [World.autoBuys_append horders, if_pos hnew]
    rfl
  -- Another check is of another issuer.
  have hother {j : ℕ} {other : Execution} (hj : (t.executions j).checking = some other)
      (hside : other.request.side = .buy) :
      t.executions j = w.executions j ∧ ¬ SameIssuer run.listing other.listing := by
    obtain ⟨hne, hsame⟩ := hframe.checking_of_ne rfl hj
    refine ⟨hsame, fun hissuer => ?_⟩
    refine h.apart i j run other hne.symm ?_ (hsame ▸ hj) ⟨hbuy, hside, hissuer⟩
    rw [hi]
    rfl
  have hfreeOther {listing : Listing} (hold : w.Free listing)
      (hnot : ¬ SameIssuer run.listing listing) : t.Free listing := by
    refine ⟨fun order hopen => ?_, fun other hauto => hold.held other (hheld other hauto)⟩
    rcases hcases order hopen with hopen | rfl
    · exact hold.orders order hopen
    · exact hnot
  constructor
  · intro listing position hposition
    exact h.positive listing position (hpositions ▸ hposition)
  · exact hframe.locked h.locked
  · intro j other counts hj hside hnone
    obtain ⟨hsame, hnot⟩ := hother (j := j) (by rw [hj]; rfl) hside
    exact hfreeOther (h.counted j other counts (hsame ▸ hj) hside hnone) hnot
  · intro j other hj hside
    obtain ⟨hsame, hnot⟩ := hother (j := j) (by rw [hj]; rfl) hside
    obtain ⟨hold, hdated⟩ := h.approved j other (hsame ▸ hj) hside
    refine ⟨hfreeOther hold hnot, ?_⟩
    rw [hbuys]
    intro buy hmem
    rcases List.mem_append.mp hmem with hmem | hmem
    · exact hdated buy hmem
    · obtain rfl := List.mem_singleton.mp hmem
      exact fun hissuer => absurd hissuer hnot
  · apply h.apart_step hframe
    nofun
  · intro order hopen listing hauto
    rcases hcases order hopen with hopen | rfl
    · exact h.openFree order hopen listing (hheld listing hauto)
    · exact hfree.held listing (hheld listing hauto)
  · intro a b ha hb hissuer
    rcases hcases a ha with ha | rfl
    · rcases hcases b hb with hb | rfl
      · exact h.openSingle a b ha hb hissuer
      · exact absurd hissuer (hfree.orders a ha)
    · rcases hcases b hb with hb | rfl
      · exact absurd hissuer.symm (hfree.orders b hb)
      · rfl
  · intro a b ha hb
    exact h.heldSingle a b (hheld a ha) (hheld b hb)
  · rw [hbuys, List.pairwise_append]
    refine ⟨h.dated, List.pairwise_singleton _ _, ?_⟩
    intro buy hmem new hnew hissuer
    obtain rfl := List.mem_singleton.mp hnew
    exact (hdates buy hmem hissuer).trans_le (days.start_mono _ hnow)

theorem RuleKept.buy {order : PaperOrder} {position : PaperPosition}
    (hframe : Frame w t i (.traded run order.id)) (hopen : w.Open order)
    (horders : t.orders = w.orders) (htrades : t.trades = order.id :: w.trades)
    (hquantity : 0 < position.quantity)
    (hpositions : t.positions = w.positions.set order.listing position) : RuleKept days t := by
  have hopens (other : PaperOrder) (hother : t.Open other) :
      w.Open other ∧ other.id ≠ order.id := by
    have huntraded := hother.untraded
    rw [htrades, List.mem_cons, not_or] at huntraded
    exact ⟨⟨horders ▸ hother.mem, hother.autoBuy, hother.pending, huntraded.2⟩, huntraded.1⟩
  have hheld (listing : Listing) (hauto : t.AutoHeld listing) :
      w.AutoHeld listing ∨ listing = order.listing := by
    obtain ⟨found, hfound, hauto⟩ := hauto
    rw [hpositions] at hfound
    rcases Dict.of_get?_set hfound with ⟨rfl, -⟩ | ⟨-, hold⟩
    · exact .inr rfl
    · exact .inl ⟨found, hold, hauto⟩
  have hbuys : t.autoBuys = w.autoBuys := by
    rw [World.autoBuys, horders, World.autoBuys]
  have hfree {listing : Listing} (hold : w.Free listing) : t.Free listing := by
    refine ⟨fun other hother => hold.orders other (hopens other hother).1, ?_⟩
    intro other hauto
    rcases hheld other hauto with hauto | rfl
    · exact hold.held other hauto
    · exact hold.orders order hopen
  constructor
  · intro listing found hfound
    rw [hpositions] at hfound
    rcases Dict.of_get?_set hfound with ⟨-, rfl⟩ | ⟨-, hold⟩
    · exact hquantity
    · exact h.positive listing found hold
  · exact hframe.locked h.locked
  · intro j other counts hj hside hnone
    have hchecking : (t.executions j).checking = some other := by
      rw [hj]
      rfl
    have hsame := (hframe.checking_of_ne rfl hchecking).2
    exact hfree (h.counted j other counts (hsame ▸ hj) hside hnone)
  · intro j other hj hside
    have hchecking : (t.executions j).checking = some other := by
      rw [hj]
      rfl
    have hsame := (hframe.checking_of_ne rfl hchecking).2
    obtain ⟨hold, hdated⟩ := h.approved j other (hsame ▸ hj) hside
    exact ⟨hfree hold, hbuys ▸ hdated⟩
  · apply h.apart_step hframe
    rintro _ ⟨⟩
  · intro other hother listing hauto
    obtain ⟨hother, hne⟩ := hopens other hother
    rcases hheld listing hauto with hauto | rfl
    · exact h.openFree other hother listing hauto
    · intro hissuer
      exact hne (congrArg PaperOrder.id (h.openSingle order other hopen hother hissuer)).symm
  · intro a b ha hb
    exact h.openSingle a b (hopens a ha).1 (hopens b hb).1
  · intro a b ha hb hissuer
    rcases hheld a ha with ha | rfl
    · rcases hheld b hb with hb | rfl
      · exact h.heldSingle a b ha hb hissuer
      · exact absurd hissuer (h.openFree order hopen a ha)
    · rcases hheld b hb with hb | rfl
      · exact absurd hissuer.symm (h.openFree order hopen b hb)
      · rfl
  · rw [hbuys]
    exact h.dated

/-- A step keeps the rule where counts overlap no check of the issuer. -/
theorem RuleKept.step {a : Action} (hok : CountsApart w a) (hstep : w.step days a = some t) :
    RuleKept days t := by
  rcases step_writes h.locked h.positive hstep with
    ⟨hquiet, hexecutions, hlock⟩ | ⟨i, event, phase, rfl, hframe, hwrites⟩
  · refine h.quiet hquiet ?_ fun _ _ _ => congrFun hexecutions _
    intro j run hrun hscheduled
    rw [hexecutions] at hrun
    exact hlock.trans (h.locked j run hrun hscheduled)
  · generalize hi : w.executions i = p at hwrites
    cases hwrites with
    | quiet hphase hquiet =>
      exact h.quiet hquiet (hframe.locked h.locked)
        fun j other hother => (hframe.checking_of_ne hphase hother).2
    | count horders htrades hpositions =>
      exact h.count hi hframe ⟨horders, htrades, hpositions⟩ hok
    | approve horders htrades hpositions hpassed =>
      exact h.approve hi hframe ⟨horders, htrades, hpositions⟩ hpassed
    | place horders htrades hpositions hnow =>
      exact h.place hi hframe horders htrades hpositions hnow
    | buy hopen horders htrades hquantity hpositions =>
      exact h.buy hframe hopen horders htrades hquantity hpositions

end KAssetTrader.Issuer
