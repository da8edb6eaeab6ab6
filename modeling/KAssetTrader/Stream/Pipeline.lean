import KAssetTrader.Stream.Session

/-!
The send pipeline of a session, over any interleaving of its calls with the sends of a
flush. What was sent, what the flush still holds and what waits in the mailbox are, topic
by topic, in the order of the offers. What the flush holds is out of reach of the calls
that release a topic or close the session, and it is sent after them.
-/

namespace KAssetTrader.Stream

open Pipeline StreamSession Transition

def messagesOf (key : String) (messages : List (String × Message)) : List Message :=
  (messages.filter (·.1 = key)).map Prod.snd

theorem messagesOf_append (key : String) (xs ys : List (String × Message)) :
    messagesOf key (xs ++ ys) = messagesOf key xs ++ messagesOf key ys := by
  simp [messagesOf]

theorem messagesOf_entries (key : String) (d : Dict String Message) :
    messagesOf key d.entries = (d.get? key).toList := d.map_filter_entries

theorem messagesOf_singleton (key other : String) (message : Message) :
    messagesOf key [(other, message)] = if other = key then [message] else [] := by
  by_cases h : other = key
  · simp [messagesOf, h]
  · simp [messagesOf, h]

namespace Pipeline

def deliveredTo (p : Pipeline) (key : String) : List Message :=
  p.delivered.filterMap fun d => if d.key = some key then some d.message else none

/-- What the flush under way has taken from the mailbox and not sent yet. -/
def rest (p : Pipeline) : List (String × Message) :=
  match p.sender with
  | .sendingBatch rest => rest
  | _ => []

def track (p : Pipeline) (key : String) : List Message :=
  p.deliveredTo key ++ messagesOf key p.rest ++ (p.session.pending.get? key).toList

end Pipeline

section Sessions

variable {session : StreamSession} {requested : List RawTopic} {key other : String}
  {message : Message}

/-- A topic that stays subscribed keeps its place in the mailbox. -/
theorem declare_pending (hkey : key ∈ (session.declare requested).topics.keys) :
    (session.declare requested).pending.get? key = session.pending.get? key := by
  have hkept : key ∉ session.released requested := by
    intro hreleased
    exact of_decide_eq_true (List.mem_filter.mp hreleased).2 hkey
  ext message
  simp only [declare]
  rw [session.pending.get?_filter_eq_some, decide_eq_true_eq]
  exact and_iff_left hkept

theorem declare_pending_sublist :
    ((session.declare requested).pending.get? key).toList.Sublist
      (session.pending.get? key).toList := by
  cases h : (session.declare requested).pending.get? key with
  | none => exact List.nil_sublist _
  | some message =>
    rw [(session.pending.get?_filter_eq_some.mp h).1]

theorem offer_pending (hopen : session.closed = false)
    (htopic : (session.topics.get? key).isSome = true) :
    (session.offer key message).pending = session.pending.set key message := by
  have hsome : ¬ (session.closed = true ∨ (session.topics.get? key).isNone = true) := by
    rintro (hclosed | hnone)
    · rw [hopen] at hclosed
      cases hclosed
    · rw [Option.isNone_iff_eq_none.mp hnone] at htopic
      cases htopic
  rw [offer, if_neg hsome]

theorem offer_refused (hrefused : ¬ (session.closed = false ∧
    (session.topics.get? key).isSome = true)) : session.offer key message = session := by
  refine if_pos ?_
  by_contra hnot
  refine hrefused ?_
  cases hclosed : session.closed <;> cases htopic : session.topics.get? key <;> simp_all

theorem offer_topics (session : StreamSession) (key : String) (message : Message) :
    (session.offer key message).topics = session.topics ∧
    (session.offer key message).closed = session.closed ∧
    (session.offer key message).control = session.control := by
  unfold offer
  split
  · exact ⟨rfl, rfl, rfl⟩
  · exact ⟨rfl, rfl, rfl⟩

end Sessions

variable {p p' : Pipeline} {key : String}

structure PipelineKept (p : Pipeline) : Prop where
  topics : ∀ key topic, p.session.topics.get? key = some topic → key = topic.key
  order : ∀ key, (p.track key).Sublist (messagesOf key p.offered)
  last : p.sender ≠ .ended → ∀ key message, p.lastOffer.get? key = some message →
    (p.track key).getLast? = some message
  subscribed : ∀ key message, p.lastOffer.get? key = some message →
    key ∈ p.session.topics.keys
  keys : ∀ key ∈ p.session.pending.keys, key ∈ p.session.topics.keys ∨ key = statusMailboxKey

/-- After the start of a batch the mailbox stays empty until the next offer. -/
def QuietKept (p : Pipeline) : Prop :=
  p.quiet = true → p.sender ≠ .sendingControl → p.sender ≠ .ended →
    p.session.pending.entries = []

namespace Pipeline

theorem sendBatch_frame (batch : List (String × Message)) :
    (p.sendBatch batch).session = p.session ∧ (p.sendBatch batch).offered = p.offered ∧
      (p.sendBatch batch).lastOffer = p.lastOffer ∧ (p.sendBatch batch).quiet = p.quiet ∧
      (p.sendBatch batch).sender ≠ .ended ∧ (p.sendBatch batch).sender ≠ .sendingControl := by
  cases batch with
  | nil => exact ⟨rfl, rfl, rfl, rfl, nofun, nofun⟩
  | cons next rest => exact ⟨rfl, rfl, rfl, rfl, nofun, nofun⟩

theorem track_sendBatch (batch : List (String × Message)) :
    (p.sendBatch batch).track key =
      p.deliveredTo key ++ messagesOf key batch ++ (p.session.pending.get? key).toList := by
  cases batch with
  | nil => rfl
  | cons next rest =>
    obtain ⟨other, message⟩ := next
    have hsent : (p.sendBatch ((other, message) :: rest)).deliveredTo key =
        p.deliveredTo key ++ messagesOf key [(other, message)] := by
      rw [messagesOf_singleton]
      simp only [sendBatch, deliveredTo, List.filterMap_append]
      by_cases h : other = key
      · simp [h]
      · simp [h]
    have hcons : messagesOf key ((other, message) :: rest) =
        messagesOf key [(other, message)] ++ messagesOf key rest :=
      messagesOf_append key [(other, message)] rest
    rw [track, hsent, hcons, List.append_assoc (p.deliveredTo key)]
    rfl

theorem track_sendControl (hrest : p.rest = []) : p.sendControl.track key = p.track key := by
  have htrack : p.track key = p.deliveredTo key ++ (p.session.pending.get? key).toList := by
    rw [track, hrest]
    simp [messagesOf]
  unfold sendControl
  split
  next message rest hcontrol =>
    rw [htrack]
    simp [track, Pipeline.rest, deliveredTo, messagesOf]
  · rw [track_sendBatch, htrack, messagesOf_entries]
    exact List.append_nil _

theorem sendControl_frame :
    p.sendControl.session.topics = p.session.topics ∧ p.sendControl.offered = p.offered ∧
      p.sendControl.lastOffer = p.lastOffer ∧ p.sendControl.sender ≠ .ended ∧
      (∀ key ∈ p.sendControl.session.pending.keys, key ∈ p.session.pending.keys) ∧
      (p.sendControl.sender ≠ .sendingControl →
        p.sendControl.session.pending.entries = []) := by
  unfold sendControl
  split
  · exact ⟨rfl, rfl, rfl, nofun, fun _ hkey => hkey, fun hne => absurd rfl hne⟩
  · obtain ⟨hsession, hoffered, hlast, _, hended, _⟩ := sendBatch_frame
      (p := { p with session := { p.session with pending := Dict.empty } })
      p.session.pending.entries
    dsimp only
    rw [hsession, hoffered, hlast]
    exact ⟨rfl, rfl, rfl, hended, List.forall_mem_nil _, fun _ => rfl⟩

end Pipeline

section

variable (h : PipelineKept p)
include h

theorem PipelineKept.sendControl (hrest : p.rest = []) (hsender : p.sender ≠ .ended) :
    PipelineKept p.sendControl := by
  obtain ⟨htopics, hoffered, hlast, hended, hpending, _⟩ := p.sendControl_frame
  refine ⟨?_, fun key => ?_, fun _ key message hoffer => ?_, ?_, ?_⟩
  · rw [htopics]
    exact h.topics
  · rw [track_sendControl hrest, hoffered]
    exact h.order key
  · rw [track_sendControl hrest]
    rw [hlast] at hoffer
    exact h.last hsender key message hoffer
  · rw [htopics, hlast]
    exact h.subscribed
  · rw [htopics]
    intro key hkey
    exact h.keys key (hpending key hkey)

theorem PipelineKept.sendBatch {batch : List (String × Message)}
    (hsender : p.sender = .sendingBatch batch) : PipelineKept (p.sendBatch batch) := by
  obtain ⟨hsession, hoffered, hlast, _⟩ := sendBatch_frame (p := p) batch
  have hrest : p.rest = batch := by
    rw [rest, hsender]
  have htrack : ∀ key, (p.sendBatch batch).track key = p.track key := by
    intro key
    rw [track_sendBatch, track, hrest]
  refine ⟨?_, fun key => ?_, fun _ key message hoffer => ?_, ?_, ?_⟩
  · rw [hsession]
    exact h.topics
  · rw [htrack, hoffered]
    exact h.order key
  · rw [htrack]
    rw [hlast] at hoffer
    exact h.last (by rw [hsender]; nofun) key message hoffer
  · rw [hsession, hlast]
    exact h.subscribed
  · rw [hsession]
    exact h.keys

theorem PipelineKept.accept {message : Message} {session : StreamSession}
    {lastOffer : Dict String Message}
    (hpending : session.pending = p.session.pending.set key message)
    (htopics : session.topics = p.session.topics)
    (hkey : key ∈ p.session.topics.keys ∨ key = statusMailboxKey)
    (hlast : (lastOffer = p.lastOffer.set key message ∧ key ∈ p.session.topics.keys) ∨ (lastOffer =
      p.lastOffer ∧ key ∉ p.session.topics.keys)) :
    PipelineKept { p with
      session := session
      offered := p.offered ++ [(key, message)]
      lastOffer := lastOffer
      quiet := false } := by
  have htrack : ∀ other, track { p with
      session := session
      offered := p.offered ++ [(key, message)]
      lastOffer := lastOffer
      quiet := false } other =
        if other = key then p.deliveredTo key ++ messagesOf key p.rest ++ [message]
        else p.track other := by
    intro other
    have hget : (p.session.pending.set key message).get? other = _ := Dict.get?_set _
    change p.deliveredTo other ++ messagesOf other p.rest ++
      (session.pending.get? other).toList = _
    rw [hpending, hget]
    split
    next heq =>
      rw [heq]
      rfl
    · rfl
  refine ⟨?_, fun other => ?_, fun hsender other last hoffer => ?_, ?_, ?_⟩
  · change ∀ key topic, session.topics.get? key = some topic → key = topic.key
    rw [htopics]
    exact h.topics
  · rw [htrack, messagesOf_append, messagesOf_singleton]
    by_cases heq : other = key
    · subst heq
      rw [if_pos rfl, if_pos rfl]
      refine List.Sublist.append ?_ (List.Sublist.refl _)
      exact (List.sublist_append_left _ _).trans (h.order other)
    · rw [if_neg heq, if_neg (Ne.symm heq), List.append_nil]
      exact h.order other
  · rw [htrack]
    rcases hlast with ⟨rfl, _⟩ | ⟨rfl, hnot⟩
    · rcases Dict.of_get?_set hoffer with ⟨rfl, rfl⟩ | ⟨hne, hold⟩
      · rw [if_pos rfl, List.getLast?_concat]
      · rw [if_neg hne]
        exact h.last hsender other last hold
    · have hne : other ≠ key := by
        rintro rfl
        exact hnot (h.subscribed other last hoffer)
      rw [if_neg hne]
      exact h.last hsender other last hoffer
  · intro other last hoffer
    change other ∈ session.topics.keys
    rw [htopics]
    rcases hlast with ⟨rfl, hmem⟩ | ⟨rfl, _⟩
    · rcases Dict.of_get?_set hoffer with ⟨rfl, _⟩ | ⟨_, hold⟩
      · exact hmem
      · exact h.subscribed other last hold
    · exact h.subscribed other last hoffer
  · intro other hother
    change other ∈ session.topics.keys ∨ _
    change other ∈ session.pending.keys at hother
    rw [htopics]
    rw [hpending, ← Dict.isSome_get?_iff, Dict.get?_set] at hother
    split at hother
    next heq => exact heq ▸ hkey
    · exact h.keys other ((Dict.isSome_get?_iff _).mp hother)

theorem PipelineKept.status_not_mem :
    statusMailboxKey ∉ p.session.topics.keys := by
  intro hmem
  obtain ⟨topic, htopic⟩ := Option.isSome_iff_exists.mp ((Dict.isSome_get?_iff _).mpr hmem)
  exact key_ne_status topic (h.topics _ topic htopic).symm

theorem PipelineKept.declare {requested : List RawTopic} :
    PipelineKept { p with
      session := p.session.declare requested
      lastOffer := p.lastOffer.filter fun key _ =>
        ((p.session.declare requested).topics.get? key).isSome } := by
  refine ⟨fun _ _ => declare_topics, fun key => ?_, fun hsender key message hoffer => ?_, ?_, ?_⟩
  · refine List.Sublist.trans ?_ (h.order key)
    exact List.Sublist.append (List.Sublist.refl _) declare_pending_sublist
  · obtain ⟨hold, hsome⟩ := p.lastOffer.get?_filter_eq_some.mp hoffer
    have hpending := declare_pending ((Dict.isSome_get?_iff _).mp hsome)
    change (p.deliveredTo key ++ messagesOf key p.rest ++
      ((p.session.declare requested).pending.get? key).toList).getLast? = some message
    rw [hpending]
    exact h.last hsender key message hold
  · intro key message hoffer
    exact (Dict.isSome_get?_iff _).mp (p.lastOffer.get?_filter_eq_some.mp hoffer).2
  · intro key hkey
    obtain ⟨message, hmessage⟩ := Option.isSome_iff_exists.mp ((Dict.isSome_get?_iff _).mpr hkey)
    obtain ⟨hold, hkept⟩ := p.session.pending.get?_filter_eq_some.mp hmessage
    have hheld : key ∈ p.session.pending.keys := (Dict.isSome_get?_iff _).mp (by rw [hold]; rfl)
    rcases h.keys key hheld with htopic | hstatus
    · refine .inl ?_
      by_contra hnot
      exact of_decide_eq_true hkept (List.mem_filter.mpr ⟨htopic, decide_eq_true hnot⟩)
    · exact .inr hstatus

theorem PipelineKept.close :
    PipelineKept { p with session := p.session.close, lastOffer := Dict.empty } := by
  refine ⟨nofun, fun key => ?_, fun _ _ _ hoffer => ?_, fun _ _ hoffer => ?_, ?_⟩
  · refine List.Sublist.trans ?_ (h.order key)
    exact List.Sublist.append (List.Sublist.refl _) (List.nil_sublist _)
  · cases hoffer
  · cases hoffer
  · intro key hkey
    cases hkey

/-- A message enters the track of its topic in the order of the offers. -/
theorem PipelineKept.step {action : PipelineAction} (hstep : p.step action = some p') :
    PipelineKept p' := by
  cases action with
  | declare requested =>
    cases hstep
    exact h.declare
  | offer key message =>
    cases hstep
    by_cases haccepted : p.session.closed = false ∧ (p.session.topics.get? key).isSome = true
    · have hkey := (Dict.isSome_get?_iff _).mp haccepted.2
      rw [if_pos haccepted]
      exact h.accept (offer_pending haccepted.1 haccepted.2)
        (offer_topics _ _ _).1 (.inl hkey)
        (.inl ⟨rfl, hkey⟩)
    · rw [if_neg haccepted, offer_refused haccepted]
      refine ⟨h.topics, fun other => ?_, h.last, h.subscribed, h.keys⟩
      rw [messagesOf_append]
      exact (h.order other).trans (List.sublist_append_left _ _)
  | offerStatus upstream reason pollingTopics =>
    cases hstep
    cases hclosed : p.session.closed with
    | true =>
      have hsame : p.session.offerStatus (.status upstream reason pollingTopics) = p.session :=
        if_pos hclosed
      rw [hsame]
      refine ⟨h.topics, fun other => ?_, h.last, h.subscribed, h.keys⟩
      rw [messagesOf_append]
      exact (h.order other).trans (List.sublist_append_left _ _)
    | false =>
      have hset : p.session.offerStatus (.status upstream reason pollingTopics) =
          { p.session with
            pending := p.session.pending.set statusMailboxKey
              (.status upstream reason pollingTopics) } := if_neg (by rw [hclosed]; nofun)
      rw [hset]
      exact h.accept rfl rfl (.inr rfl) (.inr ⟨rfl, h.status_not_mem⟩)
  | pushControl message =>
    cases hstep
    unfold pushControl
    split
    · exact h
    · exact ⟨h.topics, h.order, h.last, h.subscribed, h.keys⟩
  | close =>
    cases hstep
    exact h.close
  | flush =>
    simp only [Pipeline.step] at hstep
    split at hstep
    next hsender =>
      cases hstep
      have hstart : PipelineKept { p with quiet := true } :=
        ⟨h.topics, h.order, h.last, h.subscribed, h.keys⟩
      exact hstart.sendControl (by simp [rest, hsender]) (by simp [hsender])
    · cases hstep
  | sent =>
    simp only [Pipeline.step] at hstep
    split at hstep
    next hsender =>
      cases hstep
      exact h.sendControl (by rw [rest, hsender]) (by rw [hsender]; nofun)
    next rest hsender =>
      cases hstep
      exact h.sendBatch hsender
    · cases hstep
  | sendFailed =>
    have hended : PipelineKept { p with sender := .ended } := by
      refine ⟨h.topics, fun key => ?_, fun hne => absurd rfl hne, h.subscribed, h.keys⟩
      refine List.Sublist.trans ?_ (h.order key)
      refine List.Sublist.append ?_ (List.Sublist.refl _)
      exact List.Sublist.append (List.Sublist.refl _) (List.nil_sublist _)
    simp only [Pipeline.step] at hstep
    split at hstep
    · cases hstep
      exact hended
    · cases hstep
      exact hended
    · cases hstep

end

/-- Only an offer fills the mailbox again. -/
theorem QuietKept.step {action : PipelineAction} (h : QuietKept p)
    (hstep : p.step action = some p') : QuietKept p' := by
  cases action with
  | declare requested =>
    cases hstep
    intro hquiet hcontrol hended
    have hempty := h hquiet hcontrol hended
    change p.session.pending.entries.filter _ = []
    rw [hempty]
    rfl
  | offer key message =>
    cases hstep
    exact nofun
  | offerStatus upstream reason pollingTopics =>
    cases hstep
    exact nofun
  | pushControl message =>
    cases hstep
    unfold pushControl
    split
    · exact h
    · exact h
  | close =>
    cases hstep
    intro _ _ _
    rfl
  | flush =>
    simp only [Pipeline.step] at hstep
    split at hstep
    · cases hstep
      intro _ hcontrol _
      exact sendControl_frame.2.2.2.2.2 hcontrol
    · cases hstep
  | sent =>
    simp only [Pipeline.step] at hstep
    split at hstep
    · cases hstep
      intro _ hcontrol _
      exact sendControl_frame.2.2.2.2.2 hcontrol
    next rest hsender =>
      cases hstep
      obtain ⟨hsession, _, _, hquiet, _⟩ := sendBatch_frame (p := p) rest
      intro hyes _ _
      rw [hsession]
      rw [hquiet] at hyes
      exact h hyes (by rw [hsender]; nofun) (by rw [hsender]; nofun)
    · cases hstep
  | sendFailed =>
    simp only [Pipeline.step] at hstep
    split at hstep
    · cases hstep
      exact fun _ _ hended => absurd rfl hended
    · cases hstep
      exact fun _ _ hended => absurd rfl hended
    · cases hstep

end KAssetTrader.Stream
