import KAssetTrader.Stream.Runtime

/-!
The demand of the runtime is a reference count that `declare` and `unregister` keep by
hand. In every run it is the number of registered sessions that are subscribed.
-/

namespace KAssetTrader.Stream

open Dict StreamRuntime StreamSession Transition

variable {key : String}

section Counts

/-- The demand of a topic: zero without an entry. -/
def demandOf (demand : Dict String ℤ) (key : String) : ℤ := (demand.get? key).getD 0

/-- Every entry counts at least one subscriber. -/
def NoZeroDemand (demand : Dict String ℤ) : Prop :=
  ∀ key count, demand.get? key = some count → 0 < count

variable {demand : Dict String ℤ} {other : String}

theorem demandOf_releaseOne :
    demandOf (StreamRuntime.releaseOne demand key) other =
      if other = key then max 0 (demandOf demand key - 1) else demandOf demand other := by
  unfold releaseOne
  simp only [demandOf]
  split
  · rw [get?_set]
    split
    · simp only [Option.getD_some]
      omega
    · rfl
  · rw [get?_erase]
    split
    · simp only [Option.getD_none]
      omega
    · rfl

theorem demandOf_addOne :
    demandOf (StreamRuntime.addOne demand key) other =
      if other = key then demandOf demand key + 1 else demandOf demand other := by
  simp only [demandOf, addOne, get?_set]
  split
  · rfl
  · rfl

theorem NoZeroDemand.releaseOne (h : NoZeroDemand demand) :
    NoZeroDemand (StreamRuntime.releaseOne demand key) := by
  unfold StreamRuntime.releaseOne
  intro other count hcount
  dsimp only at hcount
  split at hcount
  next hpositive =>
    rcases of_get?_set hcount with ⟨_, rfl⟩ | ⟨_, hold⟩
    · exact hpositive
    · exact h other count hold
  · exact h other count (of_get?_erase hcount).2

theorem NoZeroDemand.addOne (h : NoZeroDemand demand) :
    NoZeroDemand (StreamRuntime.addOne demand key) := by
  intro other count hcount
  rcases of_get?_set hcount with ⟨_, rfl⟩ | ⟨_, hold⟩
  · cases hold : demand.get? key with
    | none => simp
    | some n =>
      have hpositive := h key n hold
      simp only [Option.getD_some]
      omega
  · exact h other count hold

theorem demandOf_release {keys : List String} (hnodup : keys.Nodup) :
    demandOf (StreamRuntime.release demand keys) key =
      if key ∈ keys then max 0 (demandOf demand key - 1) else demandOf demand key := by
  unfold release
  induction keys generalizing demand with
  | nil => simp
  | cons head rest ih =>
    rw [List.nodup_cons] at hnodup
    rw [List.foldl_cons, ih hnodup.2, demandOf_releaseOne]
    by_cases hhead : key = head
    · subst hhead
      simp [hnodup.1]
    · simp [hhead]

theorem NoZeroDemand.release (h : NoZeroDemand demand) (keys : List String) :
    NoZeroDemand (StreamRuntime.release demand keys) := by
  unfold StreamRuntime.release
  induction keys generalizing demand with
  | nil => exact h
  | cons head rest ih => exact ih h.releaseOne

theorem demandOf_add {keys : List String} (hnodup : keys.Nodup) :
    demandOf (keys.foldl StreamRuntime.addOne demand) key =
      demandOf demand key + if key ∈ keys then 1 else 0 := by
  induction keys generalizing demand with
  | nil => simp
  | cons head rest ih =>
    rw [List.nodup_cons] at hnodup
    rw [List.foldl_cons, ih hnodup.2, demandOf_addOne]
    by_cases hhead : key = head
    · subst hhead
      simp [hnodup.1]
    · simp [hhead]

theorem NoZeroDemand.add (h : NoZeroDemand demand) (keys : List String) :
    NoZeroDemand (keys.foldl StreamRuntime.addOne demand) := by
  induction keys generalizing demand with
  | nil => exact h
  | cons head rest ih => exact ih h.addOne

end Counts

variable {c c' : Connection} {w w' : StreamRuntime} {id : ℕ}

def Connection.subscribes (key : String) (connection : Connection) : ℕ :=
  if connection.registered = true ∧ (connection.session.topics.get? key).isSome = true then 1
  else 0

/-- The number of registered sessions that are subscribed to a topic. -/
def StreamRuntime.subscribers (w : StreamRuntime) (key : String) : ℕ :=
  w.connections.total fun _ connection => connection.subscribes key

theorem Connection.subscribes_congr (hregistered : c'.registered = c.registered)
    (htopics : c'.session.topics = c.session.topics) : c'.subscribes key = c.subscribes key := by
  rw [Connection.subscribes, Connection.subscribes, hregistered, htopics]

theorem Connection.subscribes_of_empty (h : c.session.topics = Dict.empty) :
    c.subscribes key = 0 := by
  rw [Connection.subscribes, h]
  simp

theorem Connection.subscribes_of_registered (h : c.registered = true) :
    c.subscribes key = if key ∈ c.session.topics.keys then 1 else 0 := by
  simp only [Connection.subscribes, h, Dict.isSome_get?_iff, true_and]

@[simp] theorem StreamSession.topics_offer (session : StreamSession) (key : String)
    (message : Message) : (session.offer key message).topics = session.topics := by
  unfold offer
  split
  · rfl
  · rfl

@[simp] theorem StreamSession.topics_offerStatus (session : StreamSession) (message : Message) :
    (session.offerStatus message).topics = session.topics := by
  unfold offerStatus
  split
  · rfl
  · rfl

/-- The demand counts the subscribers, and a session that has left subscribes nothing. -/
structure DemandKept (w : StreamRuntime) : Prop where
  counted : ∀ key, demandOf w.demand key = w.subscribers key
  positive : NoZeroDemand w.demand
  left : ∀ id c, w.connections.get? id = some c → c.registered = false →
    c.session.topics = Dict.empty

section

variable (h : DemandKept w)
include h

theorem DemandKept.congr (hdemand : w'.demand = w.demand)
    (hconnections : w'.connections = w.connections) : DemandKept w' := by
  refine ⟨fun key => ?_, ?_, ?_⟩
  · rw [hdemand, h.counted key, subscribers, subscribers,
      hconnections]
  · rw [hdemand]
    exact h.positive
  · rw [hconnections]
    exact h.left

theorem DemandKept.mapValues {f : ℕ → Connection → Connection}
    (hregistered : ∀ id c, (f id c).registered = c.registered)
    (htopics : ∀ id c, (f id c).session.topics = c.session.topics) (hdemand : w'.demand = w.demand)
    (hconnections : w'.connections = w.connections.mapValues f) :
    DemandKept w' := by
  refine ⟨fun key => ?_, ?_, fun id c hc hleft => ?_⟩
  · rw [hdemand, h.counted key, subscribers, subscribers,
      hconnections, total_mapValues]
    exact fun id c => Connection.subscribes_congr (hregistered id c) (htopics id c)
  · rw [hdemand]
    exact h.positive
  · rw [hconnections, get?_mapValues, Option.map_eq_some_iff] at hc
    obtain ⟨before, hbefore, rfl⟩ := hc
    rw [htopics]
    exact h.left id before hbefore (by rw [← hregistered id before, hleft])

theorem DemandKept.modifySession {f : StreamSession → StreamSession}
    (htopics : ∀ session, (f session).topics = session.topics) :
    DemandKept (w.modifySession id f) := by
  refine h.mapValues (f := fun other c => if other = id then { c with session := f c.session }
    else c) (fun _ c => ?_) (fun _ c => ?_) rfl rfl
  · split
    · rfl
    · rfl
  · split
    · exact htopics c.session
    · rfl

theorem DemandKept.replace (hc : w.connections.get? id = some c)
    (hconnections : w'.connections = w.connections.set id c')
    (hdemand : ∀ key, 0 ≤ demandOf w.demand key - c.subscribes key → demandOf w'.demand key =
      demandOf w.demand key - c.subscribes key + c'.subscribes key)
    (hpositive : NoZeroDemand w'.demand)
    (hleft : c'.registered = false → c'.session.topics = Dict.empty) : DemandKept w' := by
  refine ⟨fun key => ?_, hpositive, fun other c₂ hc₂ hgone => ?_⟩
  · obtain ⟨hbefore, hafter⟩ :=
      w.connections.total_replace (fun _ connection => connection.subscribes key) c' hc
    have hcounted := h.counted key
    have hchange := hdemand key
    rw [subscribers, hbefore] at hcounted
    rw [subscribers, hconnections, hafter]
    push_cast at hcounted ⊢
    have hnonneg : 0 ≤ demandOf w.demand key - c.subscribes key := by
      rw [hcounted]
      omega
    have hchange := hdemand key hnonneg
    omega
  · rw [hconnections] at hc₂
    rcases of_get?_set hc₂ with ⟨_, rfl⟩ | ⟨_, hold⟩
    · exact hleft hgone
    · exact h.left other c₂ hold hgone

theorem DemandKept.unregister (hc : w.connections.get? id = some c)
    (hregistered : c.registered = true) : DemandKept (w.unregister id c) := by
  refine h.replace hc rfl (fun key hnonneg => ?_) (h.positive.release _) (fun _ => rfl)
  have hgone : Connection.subscribes key
      { session := c.session.close, registered := false } = 0 :=
    Connection.subscribes_of_empty rfl
  have hnodup : c.session.topics.keys.Nodup := c.session.topics.keys_nodup
  have hdemand : demandOf (w.unregister id c).demand key = _ := demandOf_release hnodup
  rw [Connection.subscribes_of_registered hregistered] at hnonneg ⊢
  rw [hdemand, hgone]
  by_cases hkey : key ∈ c.session.topics.keys
  · rw [if_pos hkey] at hnonneg ⊢
    rw [if_pos hkey]
    push_cast at hnonneg ⊢
    omega
  · rw [if_neg hkey, if_neg hkey]
    simp

end

theorem awaitNext_eq (w : StreamRuntime) (task id : ℕ) (session : StreamSession)
    (keys : List String) :
    (w.awaitNext task id session keys).demand = w.demand ∧
      (w.awaitNext task id session keys).connections = w.connections ∧
      (w.awaitNext task id session keys).offers = w.offers := by
  unfold awaitNext
  split
  · exact ⟨rfl, rfl, rfl⟩
  · exact ⟨rfl, rfl, rfl⟩

section

variable (h : DemandKept w)
include h

/-- A declaration releases the keys that it drops and adds those that are new. -/
theorem DemandKept.declare (hc : w.connections.get? id = some c) (hregistered : c.registered = true)
    (task : ℕ) (requested : List RawTopic) :
    DemandKept (w.declare task id c requested) := by
  unfold StreamRuntime.declare
  refine (DemandKept.congr ?_ (awaitNext_eq _ _ _ _ _).1 (awaitNext_eq _ _ _ _ _).2.1)
  refine h.replace hc rfl (fun key hnonneg => ?_) ((h.positive.release _).add _) ?_
  · have hbefore : c.subscribes key = _ := Connection.subscribes_of_registered hregistered
    have hafter : Connection.subscribes key
        { c with session := w.notify (c.session.declare requested) } = _ :=
      Connection.subscribes_of_registered hregistered
    have htopics : (w.notify (c.session.declare requested)).topics =
        (c.session.declare requested).topics := topics_offerStatus _ _
    rw [htopics] at hafter
    have hreleased : (c.session.released requested).Nodup :=
      c.session.topics.keys_nodup.filter _
    have hadded : ((c.session.declare requested).topics.keys.filter fun key =>
        decide (key ∉ c.session.topics.keys)).Nodup :=
      (c.session.declare requested).topics.keys_nodup.filter _
    simp only [demandOf_add hadded, demandOf_release hreleased]
    rw [hbefore] at hnonneg ⊢
    rw [hafter]
    have hrest : key ∈ c.session.released requested ↔
        key ∈ c.session.topics.keys ∧ key ∉ (c.session.declare requested).topics.keys := by
      rw [released, List.mem_filter, decide_eq_true_iff]
      rfl
    simp only [List.mem_filter, decide_eq_true_iff, hrest]
    by_cases hold : key ∈ c.session.topics.keys
    · by_cases hnew : key ∈ (c.session.declare requested).topics.keys
      · simp [hold, hnew]
      · simp only [hold, hnew, if_true, if_false, not_false_iff, and_self,
          not_true_eq_false] at hnonneg ⊢
        push_cast at hnonneg ⊢
        omega
    · by_cases hnew : key ∈ (c.session.declare requested).topics.keys
      · simp [hold, hnew]
      · simp [hold, hnew]
  · intro hgone
    rw [hregistered] at hgone
    cases hgone

theorem DemandKept.offerQuote (key : String) (offer : QuoteOffer) :
    DemandKept (StreamRuntime.offerQuote key offer w id) := by
  unfold StreamRuntime.offerQuote
  split
  · exact h
  · exact (h.modifySession fun session => session.topics_offer key _).congr rfl rfl

theorem DemandKept.offerQuotes (key : String) (offer : QuoteOffer) (ids : List ℕ) :
    DemandKept (ids.foldl (StreamRuntime.offerQuote key offer) w) := by
  induction ids generalizing w with
  | nil => exact h
  | cons id rest ih => exact ih (h.offerQuote key offer)

theorem DemandKept.offerAll (key : String) (message : Message) (ids : List ℕ) :
    DemandKept (w.offerAll key message ids) := by
  induction ids generalizing w with
  | nil => exact h
  | cons id rest ih => exact ih (h.modifySession fun session => session.topics_offer key message)

theorem DemandKept.deliver (task : ℕ) (t : StreamTask) (baseline : Option Quote) :
    DemandKept (w.deliver task t baseline) := by
  unfold StreamRuntime.deliver
  split
  next id rest hwaiter =>
    cases baseline with
    | none =>
      dsimp only
      split
      · exact h.congr (awaitNext_eq _ _ _ _ _).1 (awaitNext_eq _ _ _ _ _).2.1
      · exact h.congr rfl rfl
    | some quote =>
      have hoffered : DemandKept (StreamRuntime.offerQuote t.key ⟨quote, false⟩ w id) :=
        h.offerQuote _ _
      dsimp only
      split
      · exact hoffered.congr (awaitNext_eq _ _ _ _ _).1 (awaitNext_eq _ _ _ _ _).2.1
      · exact hoffered.congr rfl rfl
  next ids price asOf hwaiter =>
    refine DemandKept.congr (w := baseline.elim w fun quote => ids.foldl
      (StreamRuntime.offerQuote t.key ⟨quoteFromTick quote price asOf, true⟩) w) ?_ ?_ ?_
    · cases baseline
      · exact h
      · exact h.offerQuotes _ _ _
    · cases baseline <;> rfl
    · cases baseline <;> rfl

end

variable {action : RuntimeAction}

/-- Joining and leaving move the counts of the demand with the sessions. -/
theorem DemandKept.step (h : DemandKept w) (hstep : w.step action = some w') :
    DemandKept w' := by
  cases action with
  | register id maxTopics =>
    simp only [step] at hstep
    split at hstep
    next hnone =>
      cases hstep
      refine ⟨fun key => ?_, h.positive, fun other c hc hgone => ?_⟩
      · rw [subscribers, total_set _ _ hnone,
          Connection.subscribes_of_empty rfl]
        exact h.counted key
      · rcases of_get?_set hc with ⟨_, rfl⟩ | ⟨_, hold⟩
        · rfl
        · exact h.left other c hold hgone
    next c hc =>
      cases hstep
      refine h.replace hc rfl (fun key _ => ?_) h.positive fun hgone => nomatch hgone
      have hsame : Connection.subscribes key { c with registered := true } =
          c.subscribes key := by
        cases hregistered : c.registered with
        | true => exact Connection.subscribes_congr hregistered.symm rfl
        | false =>
          have hempty := h.left id c hc hregistered
          rw [Connection.subscribes_of_empty hempty]
          exact Connection.subscribes_of_empty hempty
      rw [hsame]
      exact (sub_add_cancel _ _).symm
  | unregister id =>
    simp only [step] at hstep
    split at hstep
    · cases hstep
      exact h
    next c hc =>
      split at hstep
      next hregistered =>
        cases hstep
        exact h.unregister hc hregistered
      · cases hstep
        exact h
  | declare task id requested =>
    simp only [step] at hstep
    split at hstep
    · cases hstep
    next c hc =>
      split at hstep
      next hallowed =>
        cases hstep
        exact h.declare hc hallowed.1 task requested
      · cases hstep
  | state event =>
    cases hstep
    let v : StreamRuntime := { w with
      isLive := event.isLive, streaming := event.streaming, demoted := event.demoted,
      rejected := event.rejected, reason := event.reason }
    refine h.mapValues (f := fun _ c =>
      if c.registered then { c with session := v.notify c.session } else c)
      (fun _ c => ?_) (fun _ c => ?_) rfl rfl
    · split
      · rfl
      · rfl
    · split
      · exact topics_offerStatus _ _
      · rfl
  | trade task key price asOf =>
    simp only [step] at hstep
    split at hstep
    · cases hstep
    · split at hstep
      · cases hstep
        exact h
      · cases hstep
        exact h
      · cases hstep
        exact h.congr rfl rfl
  | orderbook key body =>
    cases hstep
    exact h.offerAll key (.text body) _
  | lookup task input =>
    simp only [step] at hstep
    split at hstep
    · cases hstep
    · split at hstep
      · cases hstep
      · cases hstep
        exact h.congr rfl rfl
  | deliver task =>
    simp only [step] at hstep
    split at hstep
    · cases hstep
    · split at hstep
      · cases hstep
        exact h.deliver task _ _
      · cases hstep

end KAssetTrader.Stream
