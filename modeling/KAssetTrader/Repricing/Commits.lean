import KAssetTrader.Repricing.Tick

/-!
The creates that committed a proposal, and the claims they committed under. A claim
whose create has committed never expires, so no two of them are claims of one event. A
tick lets go of a claim only when its create has provably committed nothing.
-/

namespace KAssetTrader.Repricing

variable {rows t : Claims} {commits : List Commit} {tokens : List ℕ} {nextId : ℕ}
  {handle : ClaimHandle}

section Recorded

structure Recorded (rows : Claims) (nextId : ℕ) (tokens : List ℕ) (commits : List Commit) :
    Prop where
  table : Shape rows nextId tokens
  claims : ∀ c ∈ commits, c.ownerToken ∈ tokens ∧ ∃ id row, rows.get? id = some row ∧
    row.eventUuid = c.eventUuid ∧ row.ownerToken = c.ownerToken ∧
      row.state ≠ .expiredUnprocessed
  once : (commits.map (·.eventUuid)).Nodup

theorem Shape.one_unexpired {id j : ℕ} {row r : ClaimRow} (h : Shape rows nextId tokens)
    (hrow : rows.get? id = some row) (hr : rows.get? j = some r)
    (hevent : row.eventUuid = r.eventUuid) (hopen : row.state ≠ .expiredUnprocessed)
    (hopen' : r.state ≠ .expiredUnprocessed) : id = j := by
  have hbelow : ∀ {a b : ℕ} {lower upper : ClaimRow}, rows.get? a = some lower →
      rows.get? b = some upper → lower.eventUuid = upper.eventUuid →
      lower.generation < upper.generation → lower.state = .expiredUnprocessed := by
    intro a b lower upper hlower hupper hsame hlt
    obtain ⟨k, s, hs, hsevent, hsgeneration, hstate⟩ :=
      h.filled b upper lower.generation hupper (h.positive a lower hlower) hlt
    obtain rfl := h.keys k s a lower hs hlower (hsevent.trans hsame.symm) hsgeneration
    cases hs.symm.trans hlower
    exact hstate
  rcases Nat.lt_trichotomy row.generation r.generation with hlt | heq | hgt
  · exact absurd (hbelow hrow hr hevent hlt) hopen
  · exact h.keys id row j r hrow hr hevent heq
  · exact absurd (hbelow hr hrow hevent.symm hgt) hopen'

variable {p : ℕ → ClaimRow → Bool}

variable (h : Recorded rows nextId tokens commits)
include h

theorem Recorded.writes (hw : Writes p rows t)
    (hkeeps : ∀ c ∈ commits, ∀ id row, rows.get? id = some row → row.ownerToken = c.ownerToken →
      row.state ≠ .expiredUnprocessed → ∃ after, t.get? id = some after ∧ after.state ≠
      .expiredUnprocessed) :
    Recorded t nextId tokens commits := by
  refine ⟨h.table.writes hw, fun c hc => ?_, h.once⟩
  obtain ⟨htoken, id, row, hrow, hevent, howner, hopen⟩ := h.claims c hc
  obtain ⟨after, hafter, hstate⟩ := hkeeps c hc id row hrow howner hopen
  obtain ⟨before, hbefore, heq⟩ := hw.before hafter
  cases hrow.symm.trans hbefore
  refine ⟨htoken, id, after, hafter, ?_, ?_, hstate⟩
  · rcases heq with rfl | hcloses
    · exact hevent
    · exact hcloses.eventUuid.trans hevent
  · rcases heq with rfl | hcloses
    · exact howner
    · exact hcloses.ownerToken.trans howner

theorem Recorded.finalise {outcome : SessionOutcome} {now : Instant}
    (houtcome : outcome.state ≠ .expiredUnprocessed)
    (hok : Repricing.finalise rows handle outcome now = .ok t) :
    Recorded t nextId tokens commits := by
  refine h.writes (finalise_writes hok) fun c _ id row hrow _ hopen => ?_
  obtain ⟨_, rfl⟩ := finalise_ok_iff.mp hok
  rw [Dict.get?_mapValues, hrow, Option.map_some]
  split
  · exact ⟨_, rfl, houtcome⟩
  · exact ⟨_, rfl, hopen⟩

theorem Recorded.release (hfresh : ∀ c ∈ commits, c.ownerToken ≠ handle.ownerToken)
    (hok : Repricing.release rows handle = .ok t) : Recorded t nextId tokens commits := by
  refine h.writes (release_writes hok) fun c hc id row hrow howner hopen => ?_
  refine ⟨row, (release_writes hok).frame id row hrow ?_, hopen⟩
  cases hheld : row.heldBy handle with
  | false => rfl
  | true => exact absurd (howner.symm.trans (heldBy_iff.mp hheld).2.2.1) (hfresh c hc)

theorem Recorded.expire (hw : Writes p rows t)
    (hsettled : ∀ c ∈ commits, ∀ id row, rows.get? id = some row → row.ownerToken = c.ownerToken →
      p id row = false) : Recorded t nextId tokens commits := by
  refine h.writes hw fun c hc id row hrow howner hopen => ?_
  exact ⟨row, hw.frame id row hrow (hsettled c hc id row hrow howner), hopen⟩

theorem Recorded.insert {new : ClaimRow} (hins : insertRow rows nextId new = .ok t)
    (hfresh : new.ownerToken ∉ tokens) (hfollows : Follows rows new.eventUuid new.generation) :
    Recorded t (nextId + 1) (new.ownerToken :: tokens) commits := by
  refine ⟨h.table.insert hins hfresh hfollows, fun c hc => ?_, h.once⟩
  obtain ⟨htoken, id, row, hrow, hrest⟩ := h.claims c hc
  refine ⟨List.mem_cons_of_mem _ htoken, id, row, ?_, hrest⟩
  rw [(insertRow_ok_iff.mp hins).2, Dict.get?_set,
    if_neg (Nat.ne_of_lt (h.table.ids id row hrow)), hrow]

theorem Recorded.commit {id : ℕ} {row : ClaimRow} (htoken : handle.ownerToken ∈ tokens)
    (hfresh : ∀ c ∈ commits, c.ownerToken ≠ handle.ownerToken) (hrow : rows.get? id = some row)
    (hheld : row.heldBy handle = true) :
    Recorded rows nextId tokens (⟨handle.eventUuid, handle.ownerToken⟩ :: commits) := by
  obtain ⟨hevent, _, howner, hstarted⟩ := heldBy_iff.mp hheld
  have hopen : row.state ≠ .expiredUnprocessed := by
    rw [hstarted]
    decide
  refine ⟨h.table, fun c hc => ?_, ?_⟩
  · rcases List.mem_cons.mp hc with rfl | hc
    · exact ⟨htoken, id, row, hrow, hevent, howner, hopen⟩
    · exact h.claims c hc
  · refine List.nodup_cons.mpr ⟨fun hmem => ?_, h.once⟩
    obtain ⟨c, hc, hsame⟩ := List.mem_map.mp hmem
    obtain ⟨_, j, r, hr, hrevent, hrowner, hropen⟩ := h.claims c hc
    obtain rfl := h.table.one_unexpired hrow hr
      (hevent.trans (hsame.symm.trans hrevent.symm)) hopen hropen
    cases hrow.symm.trans hr
    exact hfresh c hc (hrowner.symm.trans howner)

end Recorded

section TryClaim

variable {ownerToken : ℕ} {call : ClaimCall}

theorem commitClaim_of_map {generation : ℕ} {expired : Option ℕ}
    (h : (commitClaim rows nextId call generation expired ownerToken).toOption.map
      (·, call.handle generation ownerToken) = some (t, handle)) :
    insertRow (ownView rows call expired) nextId (call.row generation ownerToken) = .ok t ∧
      handle = call.handle generation ownerToken := by
  obtain ⟨t', ht', heq⟩ := Option.map_eq_some_iff.mp h
  cases heq
  exact ⟨Checked.eq_ok_of_toOption ht', rfl⟩

theorem Recorded.tryClaim (h : Recorded rows nextId tokens commits)
    (hfresh : ownerToken ∉ tokens)
    (hsettled : ∀ id generation, readLatest rows call = some (.expiring call id generation) →
      ∀ row, rows.get? id = some row → row.state = .started → ∀ c ∈ commits,
        c.ownerToken ≠ row.ownerToken)
    (hok : Repricing.tryClaim rows nextId call ownerToken = some (t, handle)) :
    Recorded t (nextId + 1) (ownerToken :: tokens) commits ∧
      handle.eventUuid = call.eventUuid ∧ handle.ownerToken = ownerToken := by
  unfold Repricing.tryClaim at hok
  split at hok
  · cases hok
  next call' id generation hread =>
    obtain ⟨rfl, row, hrow, hevent, hgeneration, hstarted⟩ := readLatest_expiring hread
    obtain ⟨hins, rfl⟩ := commitClaim_of_map hok
    refine ⟨?_, rfl, rfl⟩
    have hview : Recorded (ownView rows call (some id)) nextId tokens commits := by
      refine h.expire ownView_writes fun c hc key r hr howner => decide_eq_false ?_
      rintro ⟨hkey, hrstarted⟩
      cases hkey
      exact hsettled id generation hread r hr hrstarted c hc howner.symm
    exact hview.insert hins hfresh
      (ownView_follows hrow hevent (by rw [hgeneration]; rfl) hstarted)
  next call' generation expired hread =>
    obtain ⟨rfl, rfl, hfollows⟩ := readLatest_inserting hread
    obtain ⟨hins, rfl⟩ := commitClaim_of_map hok
    exact ⟨h.insert hins hfresh hfollows, rfl, rfl⟩

end TryClaim

/-- The handle of a tick whose create has not been called, or was refused. -/
def TickPhase.uncommitted : TickPhase → Option ClaimHandle
  | .judging _ handle _ | .creating _ handle _ | .releasing handle _ => some handle
  | _ => none

/-- The outcomes that a tick has recorded, and those it is still to write. -/
structure Judged (tick : Tick) : Prop where
  recorded : ∀ event outcome, tick.sessionOutcomes.get? event = some outcome →
    outcome.state ≠ .expiredUnprocessed
  written : ∀ outcomes, tick.phase = .finalising outcomes → ∀ p ∈ outcomes,
    p.2.state ≠ .expiredUnprocessed
  event : ∀ event handle rest, tick.phase = .judging event handle rest ∨
    tick.phase = .creating event handle rest → handle.eventUuid = event.eventUuid

variable {tick : Tick} {event : CandidateEvent} {rest : List CandidateEvent}

def Tick.Resolved (tick : Tick) : Prop :=
  ∀ event outcome, tick.sessionOutcomes.get? event = some outcome →
    outcome.state ≠ .expiredUnprocessed

@[simp] theorem uncommitted_resume : (tick.resume rest).phase.uncommitted = none := by
  cases rest <;> rfl

theorem Judged.resume (h : tick.Resolved) : Judged (tick.resume rest) := by
  cases rest with
  | nil =>
    refine ⟨h, fun outcomes hphase p hp => ?_, fun _ _ _ hphase => ?_⟩
    · obtain rfl : tick.sessionOutcomes.entries = outcomes := TickPhase.finalising.inj hphase
      exact h p.1 p.2 ((Dict.get?_eq_some _).mpr hp)
    · rcases hphase with hphase | hphase <;> cases hphase
  | cons next rest =>
    refine ⟨h, fun outcomes hphase => ?_, fun _ _ _ hphase => ?_⟩
    · cases hphase
    · rcases hphase with hphase | hphase <;> cases hphase

theorem Judged.settle (h : tick.Resolved) (disposition : SpawnDisposition) :
    Judged (tick.settle event handle rest disposition) := by
  cases disposition with
  | started => exact Judged.resume h
  | notStarted =>
    refine ⟨h, fun outcomes hphase => ?_, fun _ _ _ hphase => ?_⟩
    · cases hphase
    · rcases hphase with hphase | hphase <;> cases hphase
  | ambiguous =>
    refine ⟨h, fun outcomes hphase => ?_, fun _ _ _ hphase => ?_⟩
    · cases hphase
    · rcases hphase with hphase | hphase <;> cases hphase

variable {handle' : ClaimHandle} {outcome : SessionOutcome}

/-- After a spawn only a proven failure leaves the claim without a terminal to come. -/
theorem uncommitted_settle {disposition : SpawnDisposition}
    (h : (tick.settle event handle rest disposition).phase.uncommitted = some handle') :
    disposition = .notStarted ∧ handle' = handle := by
  cases disposition with
  | started =>
    rw [Tick.settle, uncommitted_resume] at h
    cases h
  | notStarted => exact ⟨rfl, (Option.some.inj h).symm⟩
  | ambiguous => cases h

variable {result : Except ChainError SessionOutcome}

theorem Judged.conclude (h : tick.Resolved)
    (hresult : ∀ outcome, result = .ok outcome → outcome.state ≠ .expiredUnprocessed) :
    Judged (tick.conclude event handle rest result) := by
  cases result with
  | error error => exact Judged.settle h _
  | ok outcome =>
    have hrecorded : Tick.Resolved
        { tick with
          sessionOutcomes := tick.sessionOutcomes.set event.eventUuid outcome } := by
      intro event' outcome' hget
      rcases Dict.of_get?_set hget with ⟨_, rfl⟩ | ⟨_, hget⟩
      · exact hresult _ rfl
      · exact h event' outcome' hget
    exact Judged.settle hrecorded .started

theorem uncommitted_conclude
    (h : (tick.conclude event handle rest result).phase.uncommitted = some handle') :
    handle' = handle ∧ ∃ error, result = .error error ∧ error.disposition = .notStarted := by
  cases result with
  | ok outcome => cases (uncommitted_settle h).1
  | error error =>
    obtain ⟨hdisposition, rfl⟩ := uncommitted_settle h
    refine ⟨rfl, error, rfl, ?_⟩
    cases hcase : error.disposition with
    | started => simp [hcase] at hdisposition
    | notStarted => rfl
    | ambiguous =>
      simp only [hcase, Tick.reconcile] at hdisposition
      split at hdisposition <;> cases hdisposition

theorem interpretDecline_resolved {reason : String} (h : interpretDecline reason = .ok outcome) :
    outcome.state ≠ .expiredUnprocessed := by
  unfold interpretDecline at h
  split at h
  · cases h
    simp [rejected]
  · cases h

theorem interpretCreateResponse_resolved {response : CreateResponse}
    (h : interpretCreateResponse response = .ok outcome) :
    outcome.state ≠ .expiredUnprocessed := by
  cases response with
  | raised => cases h
  | notMapping => cases h
  | refused => cases h
  | succeeded proposalId =>
    simp only [interpretCreateResponse] at h
    split at h
    · cases h
      simp [proposalCreated]
    · cases h

theorem not_commits_of_notStarted {reply : CreateReply} {error : ChainError}
    (h : interpretCreateResponse reply.response = .error error)
    (hdisposition : error.disposition = .notStarted) : reply.commits = false := by
  apply reply.honest.1
  revert h
  cases reply.response with
  | refused => exact fun _ => rfl
  | raised =>
    rintro ⟨⟩
    cases hdisposition
  | notMapping =>
    rintro ⟨⟩
    cases hdisposition
  | succeeded proposalId =>
    intro h
    simp only [interpretCreateResponse] at h
    split at h
    · cases h
    · cases h
      cases hdisposition

/-- The judgement leaves the handle where it was, or ends the spawn without a create. -/
theorem judged_spec (judgement : Judgement) (rest : List CandidateEvent)
    (h : tick.Resolved)
    (hevent : handle.eventUuid = event.eventUuid) :
    Judged (tick.judged event handle rest judgement) ∧
      ∀ handle', (tick.judged event handle rest judgement).phase.uncommitted = some handle' →
        handle' = handle := by
  have hends : ∀ {result}, (∀ outcome, result = .ok outcome →
      outcome.state ≠ .expiredUnprocessed) →
      Judged (tick.conclude event handle rest result) ∧
        ∀ handle', (tick.conclude event handle rest result).phase.uncommitted = some handle' →
          handle' = handle :=
    fun hresult => ⟨Judged.conclude h hresult, fun _ hun => (uncommitted_conclude hun).1⟩
  cases judgement with
  | refused =>
    simp only [Tick.judged]
    refine hends ?_
    intro outcome hok
    cases hok
  | decline reason => exact hends fun _ => interpretDecline_resolved
  | draft symbol =>
    simp only [Tick.judged]
    split
    · refine ⟨⟨h, fun outcomes hphase => ?_, fun _ _ _ hphase => ?_⟩, fun handle' hun => ?_⟩
      · cases hphase
      · rcases hphase with hphase | hphase
        · cases hphase
        · cases hphase
          exact hevent
      · exact (Option.some.inj hun).symm
    · refine hends ?_
      intro outcome hok
      cases hok

end KAssetTrader.Repricing
