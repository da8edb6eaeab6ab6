import KAssetTrader.Issuer.Executions

/-!
What one step of an execution can write, as a relation with a case for each way:
it counts, it is approved, it places an order, it buys, or it does nothing that
the issuer rule is about. The rule is proved from these cases.
-/

namespace KAssetTrader.Issuer

open World Paper Position

namespace World

variable (w : World)

structure Open (order : PaperOrder) : Prop where
  mem : order ∈ w.orders
  autoBuy : order.AutoBuy
  pending : order.status = .pending
  untraded : order.id ∉ w.trades

def AutoHeld (listing : Listing) : Prop :=
  ∃ position, w.positions.get? listing = some position ∧ position.automated = true

def Positive : Prop :=
  ∀ listing position, w.positions.get? listing = some position → 0 < position.quantity

/-- Nothing automated is held or can still be bought of the issuer. -/
structure Free (listing : Listing) : Prop where
  orders : ∀ order, w.Open order → ¬ SameIssuer order.listing listing
  held : ∀ other, w.AutoHeld other → ¬ SameIssuer other listing

def Locked : Prop :=
  ∀ i run, (w.executions i).run = some run → run.entry = .scheduled → w.lock = some i

end World

/-- A step that adds no automated order and no automated holding. -/
structure Quiet (w t : World) : Prop where
  buys : t.autoBuys = w.autoBuys
  opens : ∀ order, t.Open order → w.Open order
  held : ∀ listing position, t.positions.get? listing = some position →
    (0 < position.quantity ∨ w.positions.get? listing = some position) ∧
      (position.automated = true → w.AutoHeld listing)

structure Frame (w t : World) (i : ℕ) (phase : Phase) : Prop where
  executions : t.executions = Function.update w.executions i phase
  lock : ∀ run, phase.run = some run → run.entry = .scheduled → t.lock = some i
  others : ∀ j, j ≠ i → w.lock = some j → t.lock = some j

inductive Writes (days : TradingDays) (w : World) : Event → Phase → Phase → World → Prop
  | quiet {event : Event} {p phase : Phase} {t : World} : phase.checking = none → Quiet w t →
      Writes days w event p phase t
  | count {run : Execution} {t : World} : t.orders = w.orders → t.trades = w.trades →
      t.positions = w.positions →
      Writes days w .count (.claimed run) (.counted run (countsOf days w run)) t
  | approve {run : Execution} {counts : Counts} {inputs : Inputs} {t : World} :
      t.orders = w.orders → t.trades = w.trades → t.positions = w.positions →
      (judged days w run counts inputs).passed = true →
      Writes days w (.judge inputs) (.counted run counts) (.approved run) t
  | place {run : Execution} {orderId : String} {createdAt : Instant} {t : World} :
      t.orders = w.orders ++ [newOrder run orderId createdAt] → t.trades = w.trades →
      t.positions = w.positions → run.now ≤ createdAt →
      Writes days w (.place orderId createdAt) (.approved run) (.placed run orderId) t
  | buy {event : Event} {run : Execution} {order : PaperOrder} {position : PaperPosition}
      {t : World} :
      w.Open order → t.orders = w.orders → t.trades = order.id :: w.trades →
      0 < position.quantity → t.positions = w.positions.set order.listing position →
      Writes days w event (.placed run order.id) (.traded run order.id) t

variable {run : Execution} {w t : World} {i : ℕ}

section Quiet

variable {phase : Phase}

theorem Quiet.same (horders : t.orders = w.orders) (htrades : t.trades = w.trades)
    (hpositions : t.positions = w.positions) : Quiet w t := by
  refine ⟨by rw [autoBuys, horders, autoBuys], ?_, ?_⟩
  · intro order hopen
    exact ⟨horders ▸ hopen.mem, hopen.autoBuy, hopen.pending, htrades ▸ hopen.untraded⟩
  · intro listing position hposition
    rw [hpositions] at hposition
    exact ⟨.inr hposition, fun hauto => ⟨position, hposition, hauto⟩⟩

theorem Quiet.status (w : World) (orderId : String) {status : OrderStatus}
    (hstatus : status ≠ .pending) : Quiet w (w.withStatus orderId status) := by
  refine ⟨?_, ?_, ?_⟩
  · have hkeeps (order : PaperOrder) :
        (if order.id = orderId then { order with status } else order).AutoBuy ↔ order.AutoBuy := by
      split <;> rfl
    simp only [autoBuys, withStatus, List.filter_map, List.map_map, Function.comp_def,
      hkeeps]
    refine List.map_congr_left fun order _ => ?_
    split <;> rfl
  · intro order hopen
    obtain ⟨old, hold, heq⟩ := List.mem_map.mp hopen.mem
    split at heq
    · have hpending := hopen.pending
      rw [← heq] at hpending
      exact absurd hpending hstatus
    · subst heq
      exact ⟨hold, hopen.autoBuy, hopen.pending, hopen.untraded⟩
  · intro listing position hposition
    exact ⟨.inr hposition, fun hauto => ⟨position, hposition, hauto⟩⟩

theorem Quiet.finish (h : Quiet w t) (i : ℕ) (run : Execution) : Quiet w (t.finish i run) :=
  ⟨h.buys, fun _ hopen => h.opens _ ⟨hopen.mem, hopen.autoBuy, hopen.pending, hopen.untraded⟩,
    h.held⟩

theorem Quiet.withPhase (h : Quiet w t) (i : ℕ) (phase : Phase) : Quiet w (t.withPhase i phase) :=
  ⟨h.buys, fun _ hopen => h.opens _ ⟨hopen.mem, hopen.autoBuy, hopen.pending, hopen.untraded⟩,
    h.held⟩

theorem World.held_nonneg (hpositive : w.Positive) (listing : Listing) : 0 ≤ w.held listing := by
  unfold held
  cases hposition : w.positions.get? listing with
  | none => exact le_rfl
  | some position => exact (hpositive listing position hposition).le

theorem World.automated_iff {listing : Listing} :
    w.automated listing = true ↔ w.AutoHeld listing := by
  unfold automated World.AutoHeld
  cases w.positions.get? listing <;> simp

theorem Quiet.position (w : World) (listing : Listing) {position : PaperPosition}
    (hmark : position.automated = true → w.AutoHeld listing) {trades : List String}
    (htrades : w.trades ⊆ trades) :
    Quiet w { w.withPosition listing position with trades } := by
  refine ⟨rfl, ?_, ?_⟩
  · intro order hopen
    exact ⟨hopen.mem, hopen.autoBuy, hopen.pending, fun h => hopen.untraded (htrades h)⟩
  · intro other found hfound
    simp only [withPosition] at hfound
    split at hfound
    next hquantity =>
      rcases Dict.of_get?_set hfound with ⟨rfl, rfl⟩ | ⟨-, hold⟩
      · exact ⟨.inl hquantity, hmark⟩
      · exact ⟨.inr hold, fun hauto => ⟨found, hold, hauto⟩⟩
    · obtain ⟨-, hold⟩ := Dict.of_get?_erase hfound
      exact ⟨.inr hold, fun hauto => ⟨found, hold, hauto⟩⟩

theorem Frame.withPhase (hlocked : w.Locked) (hrun : (w.executions i).run = some run)
    (hphase : phase.run = some run) (hlock : t.lock = w.lock)
    (hexecutions : t.executions = w.executions) : Frame w (t.withPhase i phase) i phase := by
  refine ⟨?_, ?_, ?_⟩
  · rw [World.withPhase, hexecutions]
  · intro other hother hscheduled
    cases hphase.symm.trans hother
    exact hlock.trans (hlocked i run hrun hscheduled)
  · intro j _ hj
    exact hlock.trans hj

theorem Frame.finish (hlocked : w.Locked) (hrun : (w.executions i).run = some run)
    (hlock : t.lock = w.lock) (hexecutions : t.executions = w.executions) :
    Frame w (t.finish i run) i .idle := by
  refine ⟨?_, by simp [Phase.run], ?_⟩
  · simp only [World.finish, World.withPhase, hexecutions]
  · intro j hj hheld
    by_cases hscheduled : run.entry = .scheduled
    · have hi := hlocked i run hrun hscheduled
      exact absurd (Option.some.inj (hheld.symm.trans hi)) hj
    · simp only [World.finish, if_neg hscheduled, hlock, hheld]

end Quiet

variable {days : TradingDays} {p : Phase} {event : Event}

theorem World.mem_of_order {orderId : String} {order : PaperOrder}
    (h : w.order orderId = some order) : order ∈ w.orders ∧ order.id = orderId :=
  ⟨List.mem_of_find?_eq_some h, by simpa using List.find?_some h⟩

theorem finish_writes (hlocked : w.Locked) (hrun : (w.executions i).run = some run)
    (hquiet : Quiet w t) (hlock : t.lock = w.lock) (hexecutions : t.executions = w.executions) :
    ∃ phase, Frame w (t.finish i run) i phase ∧ Writes days w event p phase (t.finish i run) :=
  ⟨.idle, .finish hlocked hrun hlock hexecutions, .quiet rfl (hquiet.finish i run)⟩

theorem reconcile_writes (hlocked : w.Locked) (hrun : (w.executions i).run = some run)
    (order : PaperOrder) :
    ∃ phase, Frame w (w.reconcile i run order) i phase ∧
      Writes days w event p phase (w.reconcile i run order) := by
  unfold World.reconcile
  split
  · exact ⟨_, .withPhase hlocked hrun rfl rfl rfl, .quiet rfl (.same rfl rfl rfl)⟩
  · exact finish_writes hlocked hrun (.same rfl rfl rfl) rfl rfl

theorem begin_writes {entry : Entry} {now : Instant} {request : OrderRequest}
    (h : advance days w i .idle (.begin entry now request) = some t) :
    ∃ phase, Frame w t i phase ∧ Writes days w event p phase t := by
  simp only [advance] at h
  split at h
  swap
  · cases h
  refine ⟨.claimed { entry, now, request }, ?_⟩
  cases entry with
  | approved =>
    cases h
    refine ⟨⟨rfl, ?_, fun j _ hj => hj⟩, .quiet rfl (.same rfl rfl rfl)⟩
    intro run hrun hscheduled
    cases hrun
    cases hscheduled
  | scheduled =>
    simp only at h
    split at h
    swap
    · cases h
    next hfree =>
    cases h
    refine ⟨⟨rfl, fun _ _ _ => rfl, ?_⟩, .quiet rfl (.same rfl rfl rfl)⟩
    intro j _ hj
    rw [hfree] at hj
    cases hj

theorem assess_writes (hlocked : w.Locked) {counts : Counts} {inputs : Inputs}
    (hphase : w.executions i = .counted run counts) :
    ∃ phase, Frame w (assess days w i run counts inputs) i phase ∧
      Writes days w (.judge inputs) (.counted run counts) phase
        (assess days w i run counts inputs) := by
  have hrun : (w.executions i).run = some run := by
    rw [hphase]
    rfl
  unfold assess
  simp only
  split
  next hpassed =>
    exact ⟨_, .withPhase hlocked hrun rfl rfl rfl, .approve rfl rfl rfl hpassed⟩
  split
  · exact finish_writes hlocked hrun (.same rfl rfl rfl) rfl rfl
  split
  · exact finish_writes hlocked hrun (.same rfl rfl rfl) rfl rfl
  · refine ⟨_, ⟨rfl, ?_, fun j _ hj => hj⟩, .quiet rfl (.same rfl rfl rfl)⟩
    intro other hother hscheduled
    cases hother
    exact hlocked i run hrun hscheduled

theorem executeOrder_writes (hlocked : w.Locked) (hpositive : w.Positive) {orderId : String}
    {order : PaperOrder} {settled invested : Decimal}
    (hphase : w.executions i = .placed run orderId) (horder : w.order orderId = some order)
    (h : executeOrder w i run order settled invested = some t) :
    ∃ phase, Frame w t i phase ∧ Writes days w event (.placed run orderId) phase t := by
  have hrun : (w.executions i).run = some run := by
    rw [hphase]
    rfl
  obtain ⟨hmem, rfl⟩ := mem_of_order horder
  unfold executeOrder at h
  split at h
  · cases h
    exact finish_writes hlocked hrun (.same rfl rfl rfl) rfl rfl
  next hpending =>
  split at h
  · cases h
    exact ⟨_, .withPhase hlocked hrun rfl rfl rfl, .quiet rfl (.same rfl rfl rfl)⟩
  next huntraded =>
  split at h
  swap
  · cases h
  next hsettled =>
  cases h
  have hmore : w.trades ⊆ order.id :: w.trades := List.subset_cons_self _ _
  refine ⟨.traded run order.id, ?_⟩
  unfold traded
  cases hside : order.side with
  | sell =>
    refine ⟨.withPhase hlocked hrun rfl rfl rfl, .quiet rfl (.withPhase ?_ _ _)⟩
    exact .position w order.listing automated_iff.mp hmore
  | buy =>
    refine ⟨.withPhase hlocked hrun rfl rfl rfl, ?_⟩
    by_cases hentry : order.entry.isSome
    · have hquantity : 0 < w.held order.listing + settled :=
        add_pos_of_nonneg_of_pos (held_nonneg hpositive _) hsettled.1
      have hopen : w.Open order := ⟨hmem, ⟨hentry, hside⟩, not_not.mp hpending, huntraded⟩
      exact .buy hopen rfl rfl hquantity (if_pos hquantity)
    · refine .quiet rfl (.withPhase (.position w order.listing ?_ hmore) _ _)
      simp only [hentry, Bool.or_false]
      exact automated_iff.mp

theorem advance_writes (hlocked : w.Locked) (hpositive : w.Positive)
    (h : advance days w i (w.executions i) event = some t) :
    ∃ phase, Frame w t i phase ∧ Writes days w event (w.executions i) phase t := by
  generalize hphase : w.executions i = p at h ⊢
  have hrun {run : Execution} (hp : p.run = some run) : (w.executions i).run = some run :=
    hphase ▸ hp
  have hstop (h : p.run.map (w.finish i) = some t) :
      ∃ phase, Frame w t i phase ∧ Writes days w event p phase t := by
    obtain ⟨run, hp, rfl⟩ := Option.map_eq_some_iff.mp h
    exact finish_writes hlocked (hrun hp) (.same rfl rfl rfl) rfl rfl
  cases event with
  | begin entry now request =>
    cases p with
    | idle => exact begin_writes h
    | _ => cases h
  | stop => cases p <;> exact hstop h
  | lookUp =>
    cases p with
    | claimed run =>
      obtain ⟨order, -, rfl⟩ := Option.map_eq_some_iff.mp h
      exact reconcile_writes hlocked (hrun rfl) order
    | _ => cases h
  | count =>
    cases p with
    | claimed run =>
      cases h
      exact ⟨_, .withPhase hlocked (hrun rfl) rfl rfl rfl, .count rfl rfl rfl⟩
    | _ => cases h
  | judge inputs =>
    cases p with
    | counted run counts =>
      cases h
      exact assess_writes hlocked hphase
    | _ => cases h
  | place orderId createdAt =>
    cases p with
    | approved run =>
      simp only [advance] at h
      split at h
      · cases h
        exact reconcile_writes hlocked (hrun rfl) _
      split at h
      next hplace =>
        cases h
        exact ⟨_, .withPhase hlocked (hrun rfl) rfl rfl rfl, .place rfl rfl rfl hplace.1⟩
      · cases h
    | _ => cases h
  | execute settled invested =>
    cases p with
    | placed run orderId =>
      obtain ⟨order, horder, h⟩ := Option.bind_eq_some_iff.mp h
      exact executeOrder_writes hlocked hpositive hphase horder h
    | _ => cases h
  | refuse =>
    cases p with
    | placed run orderId =>
      obtain ⟨order, horder, h⟩ := Option.bind_eq_some_iff.mp h
      split at h
      · cases h
        exact finish_writes hlocked (hrun rfl) (.status w orderId nofun) rfl rfl
      · cases h
    | _ => cases h
  | settle =>
    cases p with
    | traded run orderId =>
      cases h
      exact finish_writes hlocked (hrun rfl) (.status w orderId nofun) rfl rfl
    | _ => cases h

theorem Quiet.positive (h : Quiet w t) (hpositive : w.Positive) : t.Positive := by
  intro listing position hposition
  rcases (h.held listing position hposition).1 with hquantity | hold
  · exact hquantity
  · exact hpositive listing position hold

theorem World.autoBuys_append {order : PaperOrder} (h : t.orders = w.orders ++ [order]) :
    t.autoBuys = w.autoBuys ++
      if order.AutoBuy then [⟨order.listing, order.createdAt, order.entry⟩] else [] := by
  by_cases hauto : order.AutoBuy
  · simp [autoBuys, h, List.filter_append, hauto]
  · simp [autoBuys, h, List.filter_append, hauto]

theorem Quiet.order (w : World) {order : PaperOrder} (hentry : order.entry = none) :
    Quiet w { w with orders := w.orders ++ [order] } := by
  have hnot : ¬ order.AutoBuy := by
    rintro ⟨hauto, -⟩
    rw [hentry] at hauto
    cases hauto
  refine ⟨?_, ?_, ?_⟩
  · rw [autoBuys_append rfl, if_neg hnot, List.append_nil]
  · intro other hother
    rcases List.mem_append.mp hother.mem with hold | hnew
    · exact ⟨hold, hother.autoBuy, hother.pending, hother.untraded⟩
    · obtain rfl := List.mem_singleton.mp hnew
      exact absurd hother.autoBuy hnot
  · intro listing position hposition
    exact ⟨.inr hposition, fun hauto => ⟨position, hposition, hauto⟩⟩

theorem step_writes (hlocked : w.Locked) (hpositive : w.Positive) {a : Action}
    (h : w.step days a = some t) :
    (Quiet w t ∧ t.executions = w.executions ∧ t.lock = w.lock) ∨
      ∃ i event phase, a = .execution i event ∧ Frame w t i phase ∧
        Writes days w event (w.executions i) phase t := by
  cases a with
  | wait now =>
    simp only [step] at h
    split at h
    · cases h
      exact .inl ⟨.same rfl rfl rfl, rfl, rfl⟩
    · cases h
  | order order =>
    simp only [step] at h
    split at h
    next hmanual =>
      cases h
      exact .inl ⟨.order w hmanual.1, rfl, rfl⟩
    · cases h
  | trade listing quantity invested =>
    cases h
    exact .inl ⟨.position w listing automated_iff.mp (List.Subset.refl _), rfl, rfl⟩
  | execution i event =>
    obtain ⟨phase, hframe, hwrites⟩ := advance_writes hlocked hpositive h
    exact .inr ⟨i, event, phase, rfl, hframe, hwrites⟩

end KAssetTrader.Issuer
