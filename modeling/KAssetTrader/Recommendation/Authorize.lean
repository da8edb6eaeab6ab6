import KAssetTrader.Library.Ranking
import KAssetTrader.Recommendation.Row

/-!
Which recommendation of an owner a sweep authorizes. Two queries fetch the first
hundred rows of the approved and of the pending queue; what they fetch is put in
the order of priority, and the first row that passes the gates is chosen. A row
further back in its queue is never looked at, whatever its priority. A pending row
is approved as it is chosen, by the clock of the recommendation service, and where
that is refused the sweep ends without a choice.
-/

namespace KAssetTrader.Recommendation

open Ranking

inductive SessionMarket where
  | krx
  | us
  deriving DecidableEq

structure EvidenceItem where
  source : Option String
  kind : Option String
  deriving DecidableEq

/-- A recommendation with the columns that the sweep reads. -/
structure Candidate (Id : Type) extends AIRecommendation Id where
  market : SessionMarket
  symbol : String
  evidence : List EvidenceItem
  deriving DecidableEq

/-- What a sweep is run with, and what its gates answer: `openMarket` is the
regular session of a market, `approval` that of the promotion service, and
`realtimeReady` that of the realtime gate, where there is one. -/
structure Sweep (Id : Type) where
  ownerUserId : ℤ
  now : Instant
  markets : Option (List SessionMarket)
  requirePromotion : Bool
  openMarket : SessionMarket → Bool
  approval : Candidate Id → Bool
  realtimeReady : Option (String → Bool)

namespace Candidate

variable {Id : Type} (c : Candidate Id)

/-- `is_deterministic_position_exit`. -/
def isPositionExit : Bool :=
  c.evidence.any fun item =>
    item.source = some "position_manager" ∧ item.kind = some "position_exit"

/-- `_is_reclaimable_execution_claim`. -/
def isReclaimable (now : Instant) : Bool :=
  c.paperExecutionStatus = some .claimed ∧ c.paperExecutionLeaseExpiresAt.any (· ≤ now)

def requiresRealtimeEntry : Bool :=
  c.source = some "kasset-automation" ∧ c.market = .krx ∧ c.action = .buy

def IsProtectiveExit : Prop := c.isPositionExit = true ∧ c.action = .sell

instance : Decidable c.IsProtectiveExit := inferInstanceAs (Decidable (_ ∧ _))

end Candidate

def fetchLimit : ℕ := 100

namespace Sweep

variable {Id : Type} (sweep : Sweep Id)

def Base (c : Candidate Id) : Prop :=
  c.ownerUserId = sweep.ownerUserId ∧ (c.action = .buy ∨ c.action = .sell) ∧
    c.source = some "kasset-automation" ∧ ∀ markets ∈ sweep.markets, c.market ∈ markets

def Unclaimed (c : Candidate Id) : Prop :=
  c.paperExecutionStatus = none ∧ c.validUntil.any (sweep.now < ·) = true

def InApproved (c : Candidate Id) : Prop :=
  sweep.Base c ∧ c.decision = .approved ∧
    (sweep.Unclaimed c ∨ c.isReclaimable sweep.now = true)

def InPending (c : Candidate Id) : Prop :=
  sweep.Base c ∧ c.decision = .pending ∧ sweep.Unclaimed c

instance (c : Candidate Id) : Decidable (sweep.Base c) := by
  unfold Base
  infer_instance

instance (c : Candidate Id) : Decidable (sweep.Unclaimed c) :=
  inferInstanceAs (Decidable (_ ∧ _))

instance (c : Candidate Id) : Decidable (sweep.InApproved c) :=
  inferInstanceAs (Decidable (_ ∧ _ ∧ (_ ∨ _)))

instance (c : Candidate Id) : Decidable (sweep.InPending c) :=
  inferInstanceAs (Decidable (_ ∧ _ ∧ _))

/-- The gates of a row that is not a claim to take over. -/
def passes (c : Candidate Id) : Bool :=
  (!sweep.requirePromotion || sweep.approval c) &&
    (!c.requiresRealtimeEntry || sweep.realtimeReady.any fun ready => ready c.symbol)

def inSession (c : Candidate Id) : Bool := sweep.openMarket c.market

/-- The order of priority: in session, then claims to take over, then exits. -/
def priority (c : Candidate Id) : Bool ×ₗ Bool ×ₗ Bool :=
  toLex (!sweep.inSession c, toLex (!c.isReclaimable sweep.now, !c.isPositionExit))

variable [LinearOrder Id] (rows : List (Candidate Id))

/-- `decided_at, created_at, id`, with the rows never decided last. -/
def approvedKey (c : Candidate Id) : WithTop ℤ ×ₗ ℤ ×ₗ Id :=
  toLex ((c.decidedAt.elim ⊤ WithTop.some : WithTop ℤ), toLex (c.createdAt, c.id))

/-- `created_at, id`. -/
def pendingKey (c : Candidate Id) : ℤ ×ₗ Id := toLex (c.createdAt, c.id)

def approvedQueue : List (Candidate Id) := rows.filter fun c => sweep.InApproved c

def pendingQueue : List (Candidate Id) := rows.filter fun c => sweep.InPending c

def fetched : List (Candidate Id) :=
  (sortedBy approvedKey (sweep.approvedQueue rows)).take fetchLimit ++
    (sortedBy pendingKey (sweep.pendingQueue rows)).take fetchLimit

def nextCandidate : Option (Candidate Id) :=
  (sortedBy sweep.priority (sweep.fetched rows)).find? fun c =>
    c.isReclaimable sweep.now || sweep.passes c

/-- `authorize_next_for_auto_execution`; `clock` is that of the recommendation service. -/
def authorizeNextForAutoExecution (clock : Instant) : Except ServiceError (Option Id) :=
  match sweep.nextCandidate rows with
  | none => .ok none
  | some c =>
    if c.isReclaimable sweep.now = true ∨ c.decision ≠ .pending then .ok (some c.id)
    else do
      let row ← c.toAIRecommendation.decideRecommendation c.toAIRecommendation
        sweep.ownerUserId c.id .approved clock
      return some row.id

/-- Fewer rows than a query fetches come before the row in its queue. -/
def Reached (c : Candidate Id) : Prop :=
  (sweep.InApproved c ∧ rank approvedKey (sweep.approvedQueue rows) c < fetchLimit) ∨
    (sweep.InPending c ∧ rank pendingKey (sweep.pendingQueue rows) c < fetchLimit)

/-- The order in which the queries return their rows: the approved queue first. -/
def Before (a b : Candidate Id) : Prop :=
  (sweep.InApproved a ∧ sweep.InPending b) ∨
    (sweep.InApproved a ∧ sweep.InApproved b ∧ approvedKey a < approvedKey b) ∨
    (sweep.InPending a ∧ sweep.InPending b ∧ pendingKey a < pendingKey b)

/-- A protective exit that the gates pass, ahead of all others: it is in session or no row
that is reached and passes the gates is, and no other such exit is returned before it. -/
structure Leads (c : Candidate Id) : Prop where
  reached : sweep.Reached rows c
  passes : sweep.passes c = true
  exit : c.IsProtectiveExit
  session : sweep.inSession c = true ∨ ∀ other ∈ rows, sweep.Reached rows other →
    sweep.passes other = true → sweep.inSession other = false
  first : ∀ other ∈ rows, sweep.Reached rows other → sweep.passes other = true →
    other.IsProtectiveExit → sweep.inSession other = sweep.inSession c → ¬ sweep.Before other c

/-- The row needs no approval any more, or the service still gives it at its clock. -/
def Approvable (clock : Instant) (c : Candidate Id) : Prop :=
  c.decision = .pending → (c.validateApproval (normalizedNow clock)).toOption = some ()

/-- The protective exit that leads can be authorized. -/
def ExitAuthorizable (clock : Instant) : Prop :=
  ∃ c ∈ rows, sweep.Leads rows c ∧ Approvable clock c

/-- The sweep authorizes a protective exit. -/
def SelectsExit (clock : Instant) : Prop :=
  ∃ c ∈ rows, sweep.authorizeNextForAutoExecution rows clock = .ok (some c.id) ∧
    c.IsProtectiveExit

section Lemmas

variable {sweep rows} {c : Candidate Id}

omit [LinearOrder Id] in
theorem queue_keys {κ : Type} [LinearOrder κ] {key : Candidate Id → κ}
    (hids : (rows.map (·.id)).Nodup) (hkey : ∀ a b, key a = key b → a.id = b.id)
    (queued : Candidate Id → Bool) : ((rows.filter queued).map key).Nodup := by
  have hfiltered : ((rows.filter queued).map (·.id)).Nodup :=
    (List.filter_sublist.map _).nodup hids
  rw [List.nodup_iff_pairwise_ne, List.pairwise_map] at hfiltered ⊢
  exact hfiltered.imp fun hne heq => hne (hkey _ _ heq)

theorem approvedQueue_keys (hids : (rows.map (·.id)).Nodup) :
    ((sweep.approvedQueue rows).map approvedKey).Nodup :=
  queue_keys hids (fun _ _ heq => congrArg (fun k => (ofLex (ofLex k).2).2) heq) _

theorem pendingQueue_keys (hids : (rows.map (·.id)).Nodup) :
    ((sweep.pendingQueue rows).map pendingKey).Nodup :=
  queue_keys hids (fun _ _ heq => congrArg (fun k => (ofLex k).2) heq) _

theorem mem_fetched (hids : (rows.map (·.id)).Nodup) :
    c ∈ sweep.fetched rows ↔ c ∈ rows ∧ sweep.Reached rows c := by
  rw [fetched, List.mem_append, mem_take_sortedBy (approvedQueue_keys hids),
    mem_take_sortedBy (pendingQueue_keys hids)]
  simp only [approvedQueue, pendingQueue, List.mem_filter, decide_eq_true_eq, Reached]
  tauto

theorem nextCandidate_spec (hids : (rows.map (·.id)).Nodup)
    (hclaims : ∀ c ∈ rows, c.isReclaimable sweep.now = false)
    (hnext : sweep.nextCandidate rows = some c) :
    c ∈ rows ∧ sweep.Reached rows c ∧ sweep.passes c = true ∧
      ∀ other ∈ rows, sweep.Reached rows other → sweep.passes other = true →
        sweep.priority c ≤ sweep.priority other := by
  obtain ⟨hmem, htest⟩ := mem_of_find?_sortedBy hnext
  obtain ⟨hrow, hreached⟩ := (mem_fetched hids).mp hmem
  rw [hclaims c hrow, Bool.false_or] at htest
  refine ⟨hrow, hreached, htest, ?_⟩
  intro other hother hotherReached hpasses
  apply le_of_find? hnext
  · exact (mem_fetched hids).mpr ⟨hother, hotherReached⟩
  · rw [hpasses, Bool.or_true]

theorem exists_nextCandidate (hids : (rows.map (·.id)).Nodup) (hrow : c ∈ rows)
    (hreached : sweep.Reached rows c) (hpasses : sweep.passes c = true) :
    ∃ chosen, sweep.nextCandidate rows = some chosen := by
  apply Option.ne_none_iff_exists'.mp
  intro hnone
  have hfails := find?_sortedBy_eq_none.mp hnone c ((mem_fetched hids).mpr ⟨hrow, hreached⟩)
  rw [hpasses, Bool.or_true] at hfails
  cases hfails

omit [LinearOrder Id] in
/-- Among rows that are no claims to take over, one in session precedes one that is
not, and an exit precedes another row of the same session. -/
theorem priority_le_iff {a b : Candidate Id} (ha : a.isReclaimable sweep.now = false)
    (hb : b.isReclaimable sweep.now = false) :
    sweep.priority a ≤ sweep.priority b ↔
      (sweep.inSession b = true → sweep.inSession a = true) ∧
        (sweep.inSession a = sweep.inSession b → b.isPositionExit = true →
          a.isPositionExit = true) := by
  simp only [priority, ha, hb, Prod.Lex.toLex_le_toLex]
  cases sweep.inSession a <;> cases sweep.inSession b <;> cases a.isPositionExit <;>
    cases b.isPositionExit <;> decide

omit [LinearOrder Id] in
theorem InApproved.not_pending (h : sweep.InApproved c) : ¬ sweep.InPending c := by
  intro hpending
  have hdecision : RecommendationDecision.approved = .pending := h.2.1.symm.trans hpending.2.1
  cases hdecision

theorem mem_approved_take (hids : (rows.map (·.id)).Nodup) (hrow : c ∈ rows)
    (hreached : sweep.Reached rows c) (hqueue : sweep.InApproved c) :
    c ∈ (sortedBy approvedKey (sweep.approvedQueue rows)).take fetchLimit := by
  rw [mem_take_sortedBy (approvedQueue_keys hids)]
  refine ⟨by simp [approvedQueue, hrow, hqueue], ?_⟩
  rcases hreached with ⟨-, hrank⟩ | ⟨hpending, -⟩
  · exact hrank
  · exact absurd hpending hqueue.not_pending

theorem mem_pending_take (hids : (rows.map (·.id)).Nodup) (hrow : c ∈ rows)
    (hreached : sweep.Reached rows c) (hqueue : sweep.InPending c) :
    c ∈ (sortedBy pendingKey (sweep.pendingQueue rows)).take fetchLimit := by
  rw [mem_take_sortedBy (pendingQueue_keys hids)]
  refine ⟨by simp [pendingQueue, hrow, hqueue], ?_⟩
  rcases hreached with ⟨happroved, -⟩ | ⟨-, hrank⟩
  · exact absurd hqueue happroved.not_pending
  · exact hrank

theorem before_sublist (hids : (rows.map (·.id)).Nodup) {other : Candidate Id}
    (hother : other ∈ rows) (hotherReached : sweep.Reached rows other) (hrow : c ∈ rows)
    (hreached : sweep.Reached rows c) (hbefore : sweep.Before other c) :
    [other, c].Sublist (sweep.fetched rows) := by
  rcases hbefore with ⟨happroved, hpending⟩ | ⟨ha, hb, hlt⟩ | ⟨ha, hb, hlt⟩
  · exact (List.singleton_sublist.mpr
      (mem_approved_take hids hother hotherReached happroved)).append
        (List.singleton_sublist.mpr (mem_pending_take hids hrow hreached hpending))
  · have hpair := pair_sublist_of_increasing
      ((sortedBy_increasing (approvedQueue_keys hids)).sublist (List.take_sublist _ _))
      (mem_approved_take hids hother hotherReached ha) (mem_approved_take hids hrow hreached hb) hlt
    exact hpair.trans (List.sublist_append_left _ _)
  · have hpair := pair_sublist_of_increasing
      ((sortedBy_increasing (pendingQueue_keys hids)).sublist (List.take_sublist _ _))
      (mem_pending_take hids hother hotherReached ha) (mem_pending_take hids hrow hreached hb) hlt
    exact hpair.trans (List.sublist_append_right _ _)

theorem before_total (hids : (rows.map (·.id)).Nodup) {other : Candidate Id}
    (hother : other ∈ rows) (hotherReached : sweep.Reached rows other) (hrow : c ∈ rows)
    (hreached : sweep.Reached rows c) :
    other = c ∨ sweep.Before other c ∨ sweep.Before c other := by
  have hsame (hid : other.id = c.id) : other = c := List.inj_on_of_nodup_map hids hother hrow hid
  rcases hotherReached with ⟨ha, -⟩ | ⟨ha, -⟩ <;> rcases hreached with ⟨hb, -⟩ | ⟨hb, -⟩
  · rcases lt_trichotomy (approvedKey other) (approvedKey c) with hlt | heq | hlt
    · exact .inr (.inl (.inr (.inl ⟨ha, hb, hlt⟩)))
    · exact .inl (hsame (congrArg (fun k => (ofLex (ofLex k).2).2) heq))
    · exact .inr (.inr (.inr (.inl ⟨hb, ha, hlt⟩)))
  · exact .inr (.inl (.inl ⟨ha, hb⟩))
  · exact .inr (.inr (.inl ⟨hb, ha⟩))
  · rcases lt_trichotomy (pendingKey other) (pendingKey c) with hlt | heq | hlt
    · exact .inr (.inl (.inr (.inr ⟨ha, hb, hlt⟩)))
    · exact .inl (hsame (congrArg (fun k => (ofLex k).2) heq))
    · exact .inr (.inr (.inr (.inr ⟨hb, ha, hlt⟩)))

theorem fetched_nodup (hids : (rows.map (·.id)).Nodup) : (sweep.fetched rows).Nodup := by
  have hrows : rows.Nodup := hids.of_map
  have hkept (p : Candidate Id → Bool) : (rows.filter p).Nodup := hrows.filter p
  rw [fetched, List.nodup_append]
  refine ⟨(sortedBy_perm.nodup_iff.mpr (hkept _)).sublist (List.take_sublist _ _),
    (sortedBy_perm.nodup_iff.mpr (hkept _)).sublist (List.take_sublist _ _), ?_⟩
  rintro a ha b hb rfl
  have happroved := mem_sortedBy.mp (List.mem_of_mem_take ha)
  have hpending := mem_sortedBy.mp (List.mem_of_mem_take hb)
  simp only [approvedQueue, pendingQueue, List.mem_filter, decide_eq_true_eq] at happroved hpending
  exact happroved.2.not_pending hpending.2

/-- The chosen row is a protective exit exactly where it leads. -/
theorem chooses_exit_iff (hids : (rows.map (·.id)).Nodup)
    (hexits : ∀ c ∈ rows, c.isPositionExit = true → c.action = .sell)
    (hclaims : ∀ c ∈ rows, c.isReclaimable sweep.now = false) :
    sweep.nextCandidate rows = some c ∧ c.IsProtectiveExit ↔ c ∈ rows ∧ sweep.Leads rows c := by
  have hleads : ∀ c, sweep.nextCandidate rows = some c → c.IsProtectiveExit →
      sweep.Leads rows c := by
    intro c hnext hexit
    obtain ⟨hrow, hreached, hpasses, hfirst⟩ := nextCandidate_spec hids hclaims hnext
    refine ⟨hreached, hpasses, hexit, ?_, ?_⟩
    · cases hsession : sweep.inSession c with
      | true => exact .inl rfl
      | false =>
        right
        intro other hother hotherReached hotherPasses
        have hle := hfirst other hother hotherReached hotherPasses
        have hsessions := ((priority_le_iff (hclaims c hrow) (hclaims other hother)).mp hle).1
        rw [hsession] at hsessions
        exact Bool.eq_false_iff.mpr fun hopen => absurd (hsessions hopen) (by decide)
    · intro other hother hotherReached hotherPasses hotherExit hsession hbefore
      have hle : sweep.priority other ≤ sweep.priority c := by
        rw [priority_le_iff (hclaims other hother) (hclaims c hrow), hsession]
        exact ⟨id, fun _ _ => hotherExit.1⟩
      refine find?_sortedBy_first (fetched_nodup hids) hnext ?_ hle
        (before_sublist hids hother hotherReached hrow hreached hbefore)
      rw [hotherPasses, Bool.or_true]
  constructor
  · rintro ⟨hnext, hexit⟩
    exact ⟨(nextCandidate_spec hids hclaims hnext).1, hleads c hnext hexit⟩
  · rintro ⟨hrow, hlead⟩
    obtain ⟨chosen, hnext⟩ := exists_nextCandidate hids hrow hlead.reached hlead.passes
    obtain ⟨hchosen, hchosenReached, hchosenPasses, hfirst⟩ :=
      nextCandidate_spec hids hclaims hnext
    have hle := hfirst c hrow hlead.reached hlead.passes
    obtain ⟨hopen, hsame⟩ := (priority_le_iff (hclaims chosen hchosen) (hclaims c hrow)).mp hle
    have hequal : sweep.inSession chosen = sweep.inSession c := by
      rcases hlead.session with hin | hclosed
      · rw [hin, hopen hin]
      · rw [hclosed chosen hchosen hchosenReached hchosenPasses,
          hclosed c hrow hlead.reached hlead.passes]
    have hmarked := hsame hequal hlead.exit.1
    have hexit : chosen.IsProtectiveExit := ⟨hmarked, hexits chosen hchosen hmarked⟩
    have hchosenLeads := hleads chosen hnext hexit
    obtain rfl : chosen = c := by
      rcases before_total hids hchosen hchosenReached hrow hlead.reached with heq | hbefore |
        hbefore
      · exact heq
      · exact absurd hbefore
          (hlead.first chosen hchosen hchosenReached hchosenPasses hexit hequal)
      · exact absurd hbefore
          (hchosenLeads.first c hrow hlead.reached hlead.passes hlead.exit hequal.symm)
    exact ⟨hnext, hexit⟩

theorem authorize_ok {clock : Instant} {id : Id}
    (h : sweep.authorizeNextForAutoExecution rows clock = .ok (some id)) :
    ∃ c, sweep.nextCandidate rows = some c ∧ id = c.id ∧
      (c.isReclaimable sweep.now = false → Approvable clock c) := by
  unfold authorizeNextForAutoExecution at h
  cases hnext : sweep.nextCandidate rows with
  | none =>
    rw [hnext] at h
    cases h
  | some c =>
    rw [hnext] at h
    dsimp only at h
    split at h
    next hdone =>
      refine ⟨c, rfl, (Option.some.inj (Except.ok.inj h)).symm, fun hfresh hpending => ?_⟩
      rw [hfresh, hpending] at hdone
      simp at hdone
    next hopen =>
      obtain ⟨row, hdecide, hrow⟩ := Checked.bind_ok_iff.mp h
      have hid : row.id = c.id := by
        have hafter := c.toAIRecommendation.decideRecommendation_after sweep.ownerUserId c.id
          .approved clock c.toAIRecommendation
        rw [hdecide] at hafter
        rcases hafter with hsame | ⟨_, hwritten⟩
        · exact congrArg (·.id) hsame
        · exact congrArg (·.id) hwritten
      refine ⟨c, rfl, by rw [← hid]; exact (Option.some.inj (Except.ok.inj hrow)).symm, ?_⟩
      intro _ hpending
      unfold AIRecommendation.decideRecommendation at hdecide
      rw [if_neg (by decide), hpending] at hdecide
      split at hdecide
      · cases hdecide
      · rw [if_neg (by simp), if_pos rfl] at hdecide
        obtain ⟨_, hvalid, -⟩ := Checked.bind_ok_iff.mp hdecide
        rw [hvalid]
        rfl

theorem authorize_chosen {clock : Instant} (hnext : sweep.nextCandidate rows = some c)
    (howner : c.ownerUserId = sweep.ownerUserId) (happrovable : Approvable clock c) :
    sweep.authorizeNextForAutoExecution rows clock = .ok (some c.id) := by
  rw [authorizeNextForAutoExecution, hnext]
  dsimp only
  split
  · rfl
  next hopen =>
    have hpending : c.decision = .pending := by
      by_contra hne
      exact hopen (.inr hne)
    have hvalid := Checked.eq_ok_of_toOption (happrovable hpending)
    rw [AIRecommendation.decideRecommendation, if_neg (by decide), if_neg (by simp [howner]),
      if_neg (by simp [hpending]), if_pos rfl, hvalid]
    simp [AIRecommendation.resolvePending, howner, hpending]

/-- The sweep authorizes a protective exit exactly where one leads and can be approved. -/
theorem selectsExit_iff {clock : Instant} (hids : (rows.map (·.id)).Nodup)
    (hexits : ∀ c ∈ rows, c.isPositionExit = true → c.action = .sell)
    (hclaims : ∀ c ∈ rows, c.isReclaimable sweep.now = false) :
    sweep.SelectsExit rows clock ↔ sweep.ExitAuthorizable rows clock := by
  constructor
  · rintro ⟨c, hrow, hauthorize, hexit⟩
    obtain ⟨chosen, hnext, hid, happrovable⟩ := authorize_ok hauthorize
    have hchosen := (nextCandidate_spec hids hclaims hnext).1
    obtain rfl : c = chosen := List.inj_on_of_nodup_map hids hrow hchosen hid
    exact ⟨c, hrow, ((chooses_exit_iff hids hexits hclaims).mp ⟨hnext, hexit⟩).2,
      happrovable (hclaims c hrow)⟩
  · rintro ⟨c, hrow, hlead, happrovable⟩
    obtain ⟨hnext, hexit⟩ := (chooses_exit_iff hids hexits hclaims).mpr ⟨hrow, hlead⟩
    refine ⟨c, hrow, authorize_chosen hnext ?_ happrovable, hexit⟩
    rcases hlead.reached with ⟨hqueue, -⟩ | ⟨hqueue, -⟩
    · exact hqueue.1.1
    · exact hqueue.1.1

end Lemmas

/-- A protective exit in session that a query can see and the gates pass. -/
def EligibleExit (c : Candidate Id) : Prop :=
  (sweep.InApproved c ∨ sweep.InPending c) ∧ c.IsProtectiveExit ∧ sweep.inSession c = true ∧
    sweep.passes c = true

/-- An eligible exit in the table makes the sweep authorize a protective exit. -/
def ExitFirst (clock : Instant) : Prop :=
  (∃ exit ∈ rows, sweep.EligibleExit exit) → sweep.SelectsExit rows clock

instance (c : Candidate Id) : Decidable (sweep.EligibleExit c) :=
  inferInstanceAs (Decidable (_ ∧ _ ∧ _ ∧ _))

instance (c : Candidate Id) : Decidable (sweep.Reached rows c) :=
  inferInstanceAs (Decidable ((_ ∧ _) ∨ (_ ∧ _)))

instance (a b : Candidate Id) : Decidable (sweep.Before a b) :=
  inferInstanceAs (Decidable ((_ ∧ _) ∨ (_ ∧ _ ∧ _) ∨ (_ ∧ _ ∧ _)))

theorem leads_iff {c : Candidate Id} : sweep.Leads rows c ↔
    sweep.Reached rows c ∧ sweep.passes c = true ∧ c.IsProtectiveExit ∧
      (sweep.inSession c = true ∨ ∀ other ∈ rows, sweep.Reached rows other →
        sweep.passes other = true → sweep.inSession other = false) ∧
      ∀ other ∈ rows, sweep.Reached rows other → sweep.passes other = true →
        other.IsProtectiveExit → sweep.inSession other = sweep.inSession c →
          ¬ sweep.Before other c :=
  ⟨fun h => ⟨h.reached, h.passes, h.exit, h.session, h.first⟩,
    fun ⟨hreached, hpasses, hexit, hsession, hfirst⟩ =>
      ⟨hreached, hpasses, hexit, hsession, hfirst⟩⟩

instance (c : Candidate Id) : Decidable (sweep.Leads rows c) :=
  decidable_of_iff _ (leads_iff sweep rows).symm

instance (clock : Instant) (c : Candidate Id) : Decidable (Approvable clock c) :=
  inferInstanceAs (Decidable (_ → _))

instance (clock : Instant) : Decidable (sweep.ExitAuthorizable rows clock) :=
  inferInstanceAs (Decidable (∃ c ∈ rows, _ ∧ _))

end Sweep

/-- Where no claim waits to be taken over, an eligible exit makes the sweep authorize a
protective exit exactly when it means that one leads and can still be approved. -/
theorem exits_first_iff {Id : Type} [LinearOrder Id] (sweep : Sweep Id)
    (rows : List (Candidate Id)) (clock : Instant) (hids : (rows.map (·.id)).Nodup)
    (hexits : ∀ c ∈ rows, c.isPositionExit = true → c.action = .sell)
    (hclaims : ∀ c ∈ rows, c.isReclaimable sweep.now = false) :
    sweep.ExitFirst rows clock ↔
      ((∃ exit ∈ rows, sweep.EligibleExit exit) → sweep.ExitAuthorizable rows clock) := by
  rw [Sweep.ExitFirst, Sweep.selectsExit_iff hids hexits hclaims]

def openSweep : Sweep ℕ where
  ownerUserId := 1
  now := 1000
  markets := none
  requirePromotion := false
  openMarket := fun _ => true
  approval := fun _ => true
  realtimeReady := none

/-- A pending buy of a market that needs no realtime entry. -/
def pendingBuy (id : ℕ) : Candidate ℕ where
  ownerUserId := 1
  id := id
  action := .buy
  rationale := ["breakout"]
  source := some "kasset-automation"
  createdAt := id
  validUntil := some 2000
  updatedAt := id
  market := .us
  symbol := "AAPL"
  evidence := []

def pendingExit (id : ℕ) : Candidate ℕ :=
  { pendingBuy id with
    action := .sell
    symbol := "MSFT"
    evidence := [⟨some "position_manager", some "position_exit"⟩] }

def backlog (buys : ℕ) : List (Candidate ℕ) :=
  (List.range buys).map pendingBuy ++ [pendingExit buys]

/-- A backlog of three rows. -/
theorem exits_first_iff_short : openSweep.ExitFirst (backlog 3) 1000 :=
  (exits_first_iff openSweep (backlog 3) 1000 (by decide) (by decide) (by decide)).mpr
    (fun _ => by decide +kernel)

/-- Behind a hundred older buys, the exit is never looked at. -/
theorem exit_behind_backlog : ¬ openSweep.ExitFirst (backlog 100) 1000 := by
  intro hfirst
  have heligible : ∃ exit ∈ backlog 100, openSweep.EligibleExit exit :=
    ⟨pendingExit 100, by decide +kernel, by decide +kernel⟩
  have hselects := (Sweep.selectsExit_iff (by decide +kernel) (by decide +kernel)
    (by decide +kernel)).mp (hfirst heligible)
  exact absurd hselects (by decide +kernel)

end KAssetTrader.Recommendation
