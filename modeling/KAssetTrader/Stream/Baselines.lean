import KAssetTrader.Stream.Demand

/-!
The order of baselines and ticks. A declaration that adds a topic awaits its baseline
while the reader offers ticks of that topic, so a baseline may come after a newer tick.
When no tick overtakes a declaration that still waits, every baseline of a subscription
comes before its ticks.
-/

namespace KAssetTrader.Stream

open StreamRuntime Transition

section Offers

/-- The quotes that a session took for a topic in its current subscription. -/
def StreamRuntime.offersOf (w : StreamRuntime) (id : ℕ) (key : String) : List QuoteOffer :=
  (w.offers.get? (id, key)).getD []

/-- A session takes what it is offered while it is open and subscribed. -/
def StreamRuntime.takes (w : StreamRuntime) (id : ℕ) (key : String) : Bool :=
  match w.connections.get? id with
  | some c => !c.session.closed && (c.session.topics.get? key).isSome
  | none => false

/-- A declaration of the session that still has to look the topic up. -/
def StreamTask.awaits (t : StreamTask) (id : ℕ) (key : String) : Bool :=
  match t.waiter with
  | .declaration session rest => decide (session = id ∧ (key = t.key ∨ key ∈ rest))
  | .tick _ _ _ => false

def StreamRuntime.awaitsBaseline (w : StreamRuntime) (id : ℕ) (key : String) : Bool :=
  w.tasks.entries.any fun e => e.2.awaits id key

variable {w : StreamRuntime} {id other : ℕ} {key topic : String} {offer : QuoteOffer}

theorem awaitsBaseline_iff : w.awaitsBaseline id key = true ↔
    ∃ task t, w.tasks.get? task = some t ∧ t.awaits id key = true := by
  rw [awaitsBaseline, List.any_eq_true]
  constructor
  · rintro ⟨⟨task, t⟩, hmem, ht⟩
    exact ⟨task, t, w.tasks.get?_eq_some.mpr hmem, ht⟩
  · rintro ⟨task, t, hget, ht⟩
    exact ⟨(task, t), w.tasks.get?_eq_some.mp hget, ht⟩

@[simp] theorem StreamSession.closed_offer (session : StreamSession) (key : String)
    (message : Message) : (session.offer key message).closed = session.closed := by
  unfold StreamSession.offer
  split
  · rfl
  · rfl

theorem offersOf_offerQuote :
    (StreamRuntime.offerQuote key offer w id).offersOf other topic =
      if other = id ∧ topic = key ∧ w.takes id key = true then w.offersOf other topic ++ [offer]
      else w.offersOf other topic := by
  unfold offerQuote
  cases hc : w.connections.get? id with
  | none =>
    rw [if_neg]
    rintro ⟨_, _, htakes⟩
    rw [takes, hc] at htakes
    cases htakes
  | some c =>
    have htakes : w.takes id key = true ↔
        c.session.closed = false ∧ (c.session.topics.get? key).isSome = true := by
      simp only [takes, hc, Bool.and_eq_true, Bool.not_eq_true']
    simp only [offersOf, htakes]
    by_cases htaken : c.session.closed = false ∧ (c.session.topics.get? key).isSome = true
    · rw [if_pos htaken, Dict.get?_set]
      simp only [Prod.mk.injEq, htaken, and_true]
      split
      next heq =>
        obtain ⟨rfl, rfl⟩ := heq
        rfl
      · rfl
    · rw [if_neg htaken, if_neg fun h => htaken h.2.2]

theorem takes_offerQuote :
    (StreamRuntime.offerQuote key offer w id).takes other topic = w.takes other topic := by
  unfold offerQuote
  cases hc : w.connections.get? id with
  | none => rfl
  | some c =>
    simp only [takes, modifySession, Dict.get?_modify]
    by_cases hother : other = id
    · subst hother
      rw [if_pos rfl, hc]
      simp only [Option.map_some, StreamSession.topics_offer, StreamSession.closed_offer]
    · rw [if_neg hother]

theorem tasks_offerQuote : (StreamRuntime.offerQuote key offer w id).tasks = w.tasks := by
  unfold offerQuote
  split
  · rfl
  · rfl

theorem awaitsBaseline_offerQuote :
    (StreamRuntime.offerQuote key offer w id).awaitsBaseline other topic =
      w.awaitsBaseline other topic := by
  rw [awaitsBaseline, tasks_offerQuote, awaitsBaseline]

theorem mem_of_nextQuote {session : StreamSession} {keys rest : List String}
    (h : StreamRuntime.nextQuote session keys = some (key, rest))
    (htopic : topic = key ∨ topic ∈ rest) : topic ∈ keys := by
  induction keys with
  | nil => cases h
  | cons head tail ih =>
    unfold nextQuote at h
    split at h
    · split at h
      · cases h
        rcases htopic with rfl | hrest
        · exact List.mem_cons_self
        · exact List.mem_cons_of_mem _ hrest
      · exact List.mem_cons_of_mem _ (ih h)
    · exact List.mem_cons_of_mem _ (ih h)

theorem awaitsBaseline_awaitNext {task : ℕ} {session : StreamSession} {keys : List String}
    (h : (w.awaitNext task id session keys).awaitsBaseline other topic = true) :
    w.awaitsBaseline other topic = true ∨ (other = id ∧ topic ∈ keys) := by
  obtain ⟨place, t, hget, hawaits⟩ := awaitsBaseline_iff.mp h
  unfold awaitNext at hget
  split at hget
  next key rest hnext =>
    rcases Dict.of_get?_set hget with ⟨_, rfl⟩ | ⟨_, hold⟩
    · obtain ⟨hid, htopic⟩ := of_decide_eq_true hawaits
      exact .inr ⟨hid.symm, mem_of_nextQuote hnext htopic⟩
    · exact .inl (awaitsBaseline_iff.mpr ⟨place, t, hold, hawaits⟩)
  · exact .inl (awaitsBaseline_iff.mpr ⟨place, t, (Dict.of_get?_erase hget).2, hawaits⟩)

end Offers

section Order

/-- While a session waits for a baseline it has taken no tick of that topic, and no
baseline comes after a tick. -/
structure BaselinesKept (w : StreamRuntime) : Prop where
  waiting : ∀ id key, w.awaitsBaseline id key = true →
    ∀ offer ∈ w.offersOf id key, offer.fromTick = false
  ordered : ∀ id key, (w.offersOf id key).Pairwise fun earlier later =>
    earlier.fromTick = true → later.fromTick = true

variable {w w' : StreamRuntime} {id : ℕ} {key : String}

variable (h : BaselinesKept w)
include h

/-- A step that offers nothing, and waits for nothing more unless it is for a new
subscription. -/
theorem BaselinesKept.congr
    (hoffers : ∀ id key, w'.offersOf id key = w.offersOf id key ∨ w'.offersOf id key = [])
    (hawaits : ∀ id key, w'.awaitsBaseline id key = true → w.awaitsBaseline id key = true ∨
      w'.offersOf id key = []) : BaselinesKept w' := by
  constructor
  · intro id key hwaits offer hoffer
    rcases hoffers id key with heq | hnone
    · rcases hawaits id key hwaits with hbefore | hnone
      · rw [heq] at hoffer
        exact h.waiting id key hbefore offer hoffer
      · rw [hnone] at hoffer
        exact absurd hoffer List.not_mem_nil
    · rw [hnone] at hoffer
      exact absurd hoffer List.not_mem_nil
  · intro id key
    rcases hoffers id key with heq | hnone
    · rw [heq]
      exact h.ordered id key
    · rw [hnone]
      exact List.Pairwise.nil

theorem BaselinesKept.same (hoffers : w'.offers = w.offers) (htasks : w'.tasks = w.tasks) :
    BaselinesKept w' := by
  refine h.congr (fun id key => .inl ?_) fun id key hwaits => .inl ?_
  · rw [offersOf, hoffers, offersOf]
  · rw [awaitsBaseline, htasks] at hwaits
    exact hwaits

theorem BaselinesKept.offerQuote {offer : QuoteOffer}
    (hbaseline : offer.fromTick = false → w.awaitsBaseline id key = true)
    (htick : offer.fromTick = true → w.takes id key = true → w.awaitsBaseline id key = false) :
    BaselinesKept (StreamRuntime.offerQuote key offer w id) := by
  constructor
  · intro other topic hwaits o ho
    rw [awaitsBaseline_offerQuote] at hwaits
    rw [offersOf_offerQuote] at ho
    split at ho
    next htaken =>
      obtain ⟨rfl, rfl, htakes⟩ := htaken
      rcases List.mem_append.mp ho with hold | hnew
      · exact h.waiting other topic hwaits o hold
      · obtain rfl := List.mem_singleton.mp hnew
        by_contra htrue
        rw [htick (Bool.eq_true_of_not_eq_false htrue) htakes] at hwaits
        cases hwaits
    · exact h.waiting other topic hwaits o ho
  · intro other topic
    rw [offersOf_offerQuote]
    split
    next htaken =>
      obtain ⟨rfl, rfl, htakes⟩ := htaken
      rw [List.pairwise_append]
      refine ⟨h.ordered other topic, List.pairwise_singleton _ _, ?_⟩
      intro earlier hearlier later hlater hfrom
      obtain rfl := List.mem_singleton.mp hlater
      by_contra hfalse
      have hwaits := hbaseline (Bool.eq_false_of_not_eq_true hfalse)
      rw [h.waiting other topic hwaits earlier hearlier] at hfrom
      cases hfrom
    · exact h.ordered other topic

theorem BaselinesKept.offerTick (quote : Quote) (ids : List ℕ)
    (hfirst : ∀ id ∈ ids, w.takes id key = true → w.awaitsBaseline id key = false) :
    BaselinesKept (ids.foldl (StreamRuntime.offerQuote key ⟨quote, true⟩) w) := by
  induction ids generalizing w with
  | nil => exact h
  | cons id rest ih =>
    apply ih
    · exact h.offerQuote (fun hfalse => nomatch hfalse) fun _ => hfirst id List.mem_cons_self
    · intro other hother htakes
      rw [takes_offerQuote] at htakes
      rw [awaitsBaseline_offerQuote]
      exact hfirst other (List.mem_cons_of_mem _ hother) htakes

theorem BaselinesKept.eraseTask (task : ℕ) :
    BaselinesKept { w with tasks := w.tasks.erase task } := by
  refine h.congr (fun _ _ => .inl rfl) fun id key hwaits => .inl ?_
  obtain ⟨place, t, hget, hawaits⟩ := awaitsBaseline_iff.mp hwaits
  exact awaitsBaseline_iff.mpr ⟨place, t, (Dict.of_get?_erase hget).2, hawaits⟩

theorem BaselinesKept.declare (task : ℕ) (c : Connection) (requested : List RawTopic) :
    BaselinesKept (w.declare task id c requested) := by
  have hoffers : ∀ other topic,
      ((w.declare task id c requested).offersOf other topic = w.offersOf other topic ∨
        (w.declare task id c requested).offersOf other topic = []) ∧
      (other = id → topic ∉ c.session.topics.keys →
        (w.declare task id c requested).offersOf other topic = []) := by
    intro other topic
    have hfields : (w.declare task id c requested).offers = w.offers.filter fun place _ =>
        decide (place.1 = id → place.2 ∈ c.session.topics.keys ∧
          place.2 ∈ (c.session.declare requested).topics.keys) :=
      (awaitNext_eq _ _ _ _ _).2.2
    rw [offersOf, offersOf, hfields]
    cases hget : (w.offers.filter fun place _ =>
        decide (place.1 = id → place.2 ∈ c.session.topics.keys ∧
          place.2 ∈ (c.session.declare requested).topics.keys)).get? (other, topic) with
    | none => exact ⟨.inr rfl, fun _ _ => rfl⟩
    | some offers =>
      obtain ⟨hold, hkeep⟩ := w.offers.get?_filter_eq_some.mp hget
      rw [hold]
      refine ⟨.inl rfl, fun hid hnew => ?_⟩
      exact absurd ((of_decide_eq_true hkeep) hid).1 hnew
  refine h.congr (fun other topic => (hoffers other topic).1) fun other topic hwaits => ?_
  rcases awaitsBaseline_awaitNext hwaits with hbefore | ⟨hid, hadded⟩
  · exact .inl hbefore
  · refine .inr ((hoffers other topic).2 hid ?_)
    rw [List.mem_insertionSort, List.mem_filter] at hadded
    exact of_decide_eq_true hadded.2

theorem BaselinesKept.unregister (c : Connection) :
    BaselinesKept (w.unregister id c) := by
  refine h.congr (fun other topic => ?_) fun other topic hwaits => .inl hwaits
  rw [offersOf, offersOf]
  cases hget : (w.unregister id c).offers.get? (other, topic) with
  | none => exact .inr rfl
  | some offers =>
    rw [(w.offers.get?_filter_eq_some.mp hget).1]
    exact .inl rfl

theorem BaselinesKept.setTask {task : ℕ} {t : StreamTask}
    (hawaits : ∀ id key, t.awaits id key = true → w.awaitsBaseline id key = true)
    (w' : StreamRuntime) (hoffers : w'.offers = w.offers) (htasks : w'.tasks = w.tasks.set task t) :
    BaselinesKept w' := by
  refine h.congr (fun id key => .inl ?_) fun id key hwaits => .inl ?_
  · rw [offersOf, hoffers, offersOf]
  · obtain ⟨place, found, hget, hfound⟩ := awaitsBaseline_iff.mp hwaits
    rw [htasks] at hget
    rcases Dict.of_get?_set hget with ⟨_, rfl⟩ | ⟨_, hold⟩
    · exact hawaits id key hfound
    · exact awaitsBaseline_iff.mpr ⟨place, found, hold, hfound⟩

theorem BaselinesKept.deliverDeclaration {task : ℕ} {t : StreamTask} {rest : List String}
    (ht : w.tasks.get? task = some t) (hwaiter : t.waiter = .declaration id rest)
    (baseline : Option Quote) :
    BaselinesKept (w.deliver task t baseline) := by
  have hawaits : ∀ topic, topic = t.key ∨ topic ∈ rest → w.awaitsBaseline id topic = true := by
    intro topic htopic
    refine awaitsBaseline_iff.mpr ⟨task, t, ht, ?_⟩
    rw [StreamTask.awaits, hwaiter]
    exact decide_eq_true ⟨rfl, htopic⟩
  obtain ⟨v, hv, hsame, hdeliver⟩ : ∃ v : StreamRuntime, BaselinesKept v ∧
      (∀ other topic, v.awaitsBaseline other topic = w.awaitsBaseline other topic) ∧
      w.deliver task t baseline = match v.connections.get? id with
        | some connection => v.awaitNext task id connection.session rest
        | none => { v with tasks := v.tasks.erase task } := by
    rw [StreamRuntime.deliver, hwaiter]
    cases baseline with
    | none => exact ⟨w, h, fun _ _ => rfl, rfl⟩
    | some quote =>
      refine ⟨StreamRuntime.offerQuote t.key ⟨quote, false⟩ w id, ?_,
        fun _ _ => awaitsBaseline_offerQuote, rfl⟩
      exact h.offerQuote (fun _ => hawaits t.key (.inl rfl)) fun htrue => nomatch htrue
  rw [hdeliver]
  split
  next connection _ =>
    refine hv.congr (fun other topic => .inl ?_) fun other topic hwaits => .inl ?_
    · rw [StreamRuntime.offersOf, (awaitNext_eq _ _ _ _ _).2.2, StreamRuntime.offersOf]
    · rcases awaitsBaseline_awaitNext hwaits with hbefore | ⟨rfl, hrest⟩
      · exact hbefore
      · rw [hsame]
        exact hawaits topic (.inr hrest)
  · exact hv.eraseTask task

end Order

def StreamTask.tickListeners (t : StreamTask) : List ℕ :=
  match t.waiter, t.phase with
  | .tick listeners _ _, .ready (some _) => listeners
  | _, _ => []

/-- No tick of a topic is offered to a session while one of its declarations still has
to look the topic up. -/
def BaselineFirst (w : StreamRuntime) : RuntimeAction → Prop
  | .deliver task => ∀ t ∈ w.tasks.get? task, ∀ id ∈ t.tickListeners,
      w.takes id t.key = true → w.awaitsBaseline id t.key = false
  | _ => True

variable {w w' : StreamRuntime} {action : RuntimeAction}

theorem offerAll_eq (w : StreamRuntime) (key : String) (message : Message) (ids : List ℕ) :
    (w.offerAll key message ids).offers = w.offers ∧
      (w.offerAll key message ids).tasks = w.tasks := by
  induction ids generalizing w with
  | nil => exact ⟨rfl, rfl⟩
  | cons id rest ih => exact ih (w.modifySession id (·.offer key message))

/-- A tick that comes after its baseline keeps the two in order. -/
theorem BaselinesKept.step (h : BaselinesKept w) (hfirst : BaselineFirst w action)
    (hstep : w.step action = some w') : BaselinesKept w' := by
  cases action with
  | register id maxTopics =>
    simp only [step] at hstep
    split at hstep
    · cases hstep
      exact h.same rfl rfl
    · cases hstep
      exact h.same rfl rfl
  | unregister id =>
    simp only [step] at hstep
    split at hstep
    · cases hstep
      exact h
    next c hc =>
      split at hstep
      · cases hstep
        exact h.unregister c
      · cases hstep
        exact h
  | declare task id requested =>
    simp only [step] at hstep
    split at hstep
    · cases hstep
    next c hc =>
      split at hstep
      · cases hstep
        exact h.declare task c requested
      · cases hstep
  | state event =>
    cases hstep
    exact h.same rfl rfl
  | trade task key price asOf =>
    simp only [step] at hstep
    split at hstep
    · cases hstep
    · split at hstep
      · cases hstep
        exact h
      · cases hstep
        exact h
      · cases hstep
        refine h.setTask (fun _ _ hnone => ?_) _ rfl rfl
        cases hnone
  | orderbook key body =>
    cases hstep
    exact h.same (offerAll_eq _ _ _ _).1 (offerAll_eq _ _ _ _).2
  | lookup task input =>
    simp only [step] at hstep
    split at hstep
    · cases hstep
    next t ht =>
      split at hstep
      · cases hstep
      · cases hstep
        refine h.setTask (fun id key hawaits => ?_) _ rfl rfl
        exact awaitsBaseline_iff.mpr ⟨task, t, ht, hawaits⟩
  | deliver task =>
    simp only [step] at hstep
    split at hstep
    · cases hstep
    next t ht =>
      split at hstep
      next baseline hphase =>
        cases hstep
        cases hwaiter : t.waiter with
        | declaration id rest => exact h.deliverDeclaration ht hwaiter baseline
        | tick listeners price asOf =>
          rw [deliver, hwaiter]
          cases baseline with
          | none => exact h.eraseTask task
          | some quote =>
            have hlisteners : t.tickListeners = listeners := by
              rw [StreamTask.tickListeners, hwaiter, hphase]
            have hfirst := hfirst t ht
            rw [hlisteners] at hfirst
            have hoffered := h.offerTick (quoteFromTick quote price asOf) listeners hfirst
            exact hoffered.eraseTask task
      · cases hstep

/-- What the runtime promises: the demand of a topic is the number of the registered
sessions that are subscribed to it, with no entry for none, and no baseline is offered
after a tick that is newer. -/
structure RuntimeSound (w : StreamRuntime) : Prop where
  demand : ∀ key, w.demand.get? key =
    if w.subscribers key = 0 then none else some (w.subscribers key : ℤ)
  ordered : ∀ id key, (w.offersOf id key).Pairwise fun earlier later =>
    earlier.fromTick = true → later.fromTick = false →
      earlier.quote.asOf ≤ later.quote.asOf

def RuntimeStart (w : StreamRuntime) : Prop := w = {}

theorem DemandKept.demand_eq (h : DemandKept w) (key : String) : w.demand.get? key =
    if w.subscribers key = 0 then none else some (w.subscribers key : ℤ) := by
  have hcounted := h.counted key
  rw [demandOf] at hcounted
  cases hget : w.demand.get? key with
  | none =>
    rw [hget, Option.getD_none] at hcounted
    have hnone : w.subscribers key = 0 := by omega
    rw [if_pos hnone]
  | some count =>
    have hpositive := h.positive key count hget
    rw [hget, Option.getD_some] at hcounted
    have hsome : w.subscribers key ≠ 0 := by omega
    rw [if_neg hsome, hcounted]

theorem demand_counts_subscribers (h : Reachable RuntimeStart StreamRuntime.step w) :
    DemandKept w := by
  refine invariant ?_ (fun _ _ _ hkept _ hstep => hkept.step hstep) h
  rintro _ rfl
  refine ⟨fun _ => rfl, fun _ _ hget => ?_, fun _ _ hget => ?_⟩
  · cases hget
  · cases hget

/-- In every run in which no tick overtakes a declaration that waits for the baseline of
its topic, the demand counts the subscribers and no baseline follows a newer tick. -/
theorem runtime_keeps_demand_and_order
    (h : ReachableVia RuntimeStart StreamRuntime.step BaselineFirst w) : RuntimeSound w := by
  have hkept : BaselinesKept w := by
    refine invariant ?_ (fun _ _ _ hkept hfirst hstep => hkept.step hfirst hstep) h
    rintro _ rfl
    refine ⟨fun _ _ hwaits => ?_, fun _ _ => List.Pairwise.nil⟩
    cases hwaits
  have hdemand := demand_counts_subscribers (h.mono fun _ _ _ => trivial)
  refine ⟨hdemand.demand_eq, fun id key => ?_⟩
  refine (hkept.ordered id key).imp fun {earlier later} horder htick hbaseline => ?_
  rw [horder htick] at hbaseline
  cases hbaseline

instance decidableBaselineFirst (w : StreamRuntime) :
    (action : RuntimeAction) → Decidable (BaselineFirst w action)
  | .deliver task =>
    inferInstanceAs (Decidable (∀ t ∈ w.tasks.get? task, ∀ id ∈ t.tickListeners,
      w.takes id t.key = true → w.awaitsBaseline id t.key = false))
  | .register _ _ | .unregister _ | .declare _ _ _ | .state _ | .trade _ _ _ _
  | .orderbook _ _ | .lookup _ _ => inferInstanceAs (Decidable True)

def aapl (price : Decimal) (asOf : Moment) : Quote :=
  { market := .us, symbol := "AAPL", currency := "USD", price := price,
    session := some .regular, asOf := asOf, source := "REST" }

/-- A client subscribes to a quote and gets its baseline. -/
def subscribeFirst : List RuntimeAction :=
  [.register 1 54, .declare 1 1 [.text "quote:US:AAPL"], .lookup 1 (.clock 0),
    .lookup 1 (.clock 0), .lookup 1 (.baseline (some (some (aapl 200 1000000))) 0),
    .lookup 1 (.marketSession (some (some .regular))), .deliver 1]

/-- A second client subscribes to the same quote, and a tick comes when it has its
baseline. -/
def tickAfterBaseline : List RuntimeAction :=
  subscribeFirst ++ [.register 2 54, .declare 2 2 [.text "quote:US:AAPL"],
    .lookup 2 (.clock 1000000), .lookup 2 (.marketSession (some (some .regular))), .deliver 2,
    .trade 3 "quote:US:AAPL" 201 2000000, .lookup 3 (.clock 2000000),
    .lookup 3 (.marketSession (some (some .regular))), .deliver 3]

/-- A tick after its baseline. -/
theorem runtime_keeps_demand_and_order_of_two :
    ∃ w, run StreamRuntime.step {} tickAfterBaseline = some w ∧
      (w.offersOf 2 "quote:US:AAPL").map (·.fromTick) = [false, true] ∧ RuntimeSound w := by
  obtain ⟨w, hw, hoffers⟩ :
      ∃ w, run step {} tickAfterBaseline = some w ∧
        (w.offersOf 2 "quote:US:AAPL").map (·.fromTick) = [false, true] :=
    exists_run (by decide +kernel)
  have halong : Along step BaselineFirst {} tickAfterBaseline := by decide +kernel
  have hstart : ReachableVia RuntimeStart step BaselineFirst {} := .start rfl
  exact ⟨w, hw, hoffers,
    runtime_keeps_demand_and_order (hstart.run halong hw)⟩

/-- The declaration of the second client is at the market session when the tick is
offered, and then gets the older baseline. -/
def tickBeforeBaseline : List RuntimeAction :=
  subscribeFirst ++ [.register 2 54, .declare 2 2 [.text "quote:US:AAPL"],
    .lookup 2 (.clock 1000000), .trade 3 "quote:US:AAPL" 201 2000000,
    .lookup 3 (.clock 2000000), .lookup 3 (.marketSession (some (some .regular))), .deliver 3,
    .lookup 2 (.marketSession (some (some .regular))), .deliver 2]

/-- A tick overtakes the baseline that was asked for before it. -/
theorem late_baseline_overwrites_tick :
    ∃ w, Reachable RuntimeStart StreamRuntime.step w ∧ ¬ RuntimeSound w := by
  obtain ⟨w, hw, hlate⟩ :
      ∃ w, run step {} tickBeforeBaseline = some w ∧
        ¬ (w.offersOf 2 "quote:US:AAPL").Pairwise fun earlier later => earlier.fromTick = true →
          later.fromTick = false → earlier.quote.asOf ≤ later.quote.asOf :=
    exists_run (by decide +kernel)
  refine ⟨w, reachable_of_run rfl hw, fun hsound => ?_⟩
  exact hlate (hsound.ordered 2 "quote:US:AAPL")

end KAssetTrader.Stream
