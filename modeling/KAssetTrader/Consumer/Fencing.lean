import KAssetTrader.Consumer.AtMostOnce

/-!
A failed recommendation has no filled order, and never gets one, as long as a
fill is fenced by its claim: a consumer reads back no claim but its own, and
commits a filled order only while its claim is the current one. Nothing in a
fill checks the claim, so a consumer that outlives its lease can break this.
-/

namespace KAssetTrader.Consumer

open Position Recommendation Transition
open Unicode (strip)

def Claim.Current (c : Claim) (shared : SharedRow String) : Prop :=
  shared.locked = none ∧ shared.row.paperExecutionStatus = some .claimed ∧
    shared.row.paperExecutionToken = some c.committed

instance (c : Claim) (shared : SharedRow String) : Decidable (c.Current shared) := by
  unfold Claim.Current
  infer_instance

def PaperOrder.filledBy (order : PaperOrder) (trade : PaperTrade) : Bool :=
  !order.hasTrade trade && (order.withTrade trade).toOption.any (·.status = .filled)

/-- The next step of the consumer is fenced by its claim. -/
def Phase.Fenced (shared : SharedRow String) : Phase → Prop
  | .committed c => ∀ token ∈ shared.row.paperExecutionToken, token = c.committed
  | .applying c _ order trade => order.filledBy trade = true → c.Current shared
  | _ => True

instance (shared : SharedRow String) (p : Phase) : Decidable (p.Fenced shared) := by
  induction p using Phase.casesOn <;> unfold Phase.Fenced <;> infer_instance

/-- Claims are read back, and filled orders committed, under the own claim. -/
def World.Fenced (w : World) : Action → Prop
  | .consumer i .next => (w.consumers i).Fenced w.shared
  | _ => True

instance (w : World) (a : Action) : Decidable (w.Fenced a) := by
  induction a using Action.casesOn with
  | consumer i e => induction e using Event.casesOn <;> unfold World.Fenced <;> infer_instance
  | _ => exact .isTrue trivial

variable {a : Action} {e : Event} {p p' : Phase} {target : Target} {w w' t : World} {write : Write}

def Phase.Locks (p : Phase) : Prop := p.release = .row .rollback

/-- A claim as committed: its token has been read back, and was used. -/
structure Held (shared : SharedRow String) (c : Claim) : Prop where
  token : c.token = c.committed
  stripped : strip c.committed = c.committed
  used : c.committed ∈ shared.tokens

/-- One consumer at most holds the lock, and no two hold the same claim. -/
structure Custody (w : World) : Prop where
  locks : ∀ i, (w.consumers i).Locks → w.shared.locked.isSome
  once : ∀ i j, (w.consumers i).Locks → (w.consumers j).Locks → i = j
  held : ∀ i, ∀ c ∈ (w.consumers i).claim, Held w.shared c
  distinct : ∀ i j, ∀ c ∈ (w.consumers i).claim, ∀ d ∈ (w.consumers j).claim,
    c.committed = d.committed → i = j

theorem not_locks_of_claim {c : Claim} (h : p.claim = some c) : ¬ p.Locks := by
  cases p <;> simp [Phase.claim, Phase.Locks, Phase.release] at h ⊢

/-- A step takes the free lock, gives it back, or leaves it where it is; and
then it writes the row only when the lock is free. -/
theorem Moves.locks (h : Moves target w p p' write) (ht : w.perform write = some t) :
    (w.shared.locked = none ∧ t.shared.locked.isSome) ∨ (p.Locks ∧ ¬ p'.Locks) ∨
      ((p'.Locks → p.Locks) ∧ t.shared.locked = w.shared.locked ∧
        ((∀ action, write ≠ .row action) ∨ w.shared.locked = none)) := by
  obtain ⟨-, -, hshared, haction⟩ := perform_frame ht
  have hkept (hlocks : p'.Locks → p.Locks) (hrow : ∀ action, write ≠ .row action) :
      (p'.Locks → p.Locks) ∧ t.shared.locked = w.shared.locked ∧
        ((∀ action, write ≠ .row action) ∨ w.shared.locked = none) :=
    ⟨hlocks, hshared hrow ▸ rfl, .inl hrow⟩
  have hwritten {row : AIRecommendation String} (hlocks : ¬ p'.Locks)
      (hstep : w.shared.write row = some t.shared) :
      (p'.Locks → p.Locks) ∧ t.shared.locked = w.shared.locked ∧
        ((∀ action, write ≠ .row action) ∨ w.shared.locked = none) := by
    obtain ⟨hlocked, hlocked', -⟩ := write_spec hstep
    exact ⟨fun h => absurd h hlocks, hlocked'.trans hlocked.symm, .inr hlocked⟩
  cases h with
  | select _ =>
    obtain ⟨-, -, hstep⟩ := haction _ rfl
    simp only [SharedRow.step] at hstep
    split at hstep
    next hselect =>
      refine .inl ⟨hselect.1, ?_⟩
      rw [← Option.some.inj hstep]
      rfl
    · cases hstep
  | claim _ _ _ => exact .inr (.inl ⟨rfl, not_locks_of_claim rfl⟩)
  | exhausted => exact .inr (.inl ⟨rfl, by rintro ⟨⟩⟩)
  | rollback hrelease => exact .inr (.inl ⟨hrelease, by rintro ⟨⟩⟩)
  | readLimit _ => exact .inr (.inr (hkept (fun _ => rfl) (by simp)))
  | complete hnext =>
    exact .inr (.inr (hwritten (by rcases hnext with rfl | rfl <;> rintro ⟨⟩)
      (haction _ rfl).2.2))
  | reconcile => exact .inr (.inr (hwritten (by rintro ⟨⟩) (haction _ rfl).2.2))
  | fail => exact .inr (.inr (hwritten (by rintro ⟨⟩) (haction _ rfl).2.2))
  | thrown hthrown =>
    refine .inr (.inr (hkept (fun hlocks => ?_) (by simp)))
    cases p <;> simp only [Phase.thrown, Option.some.injEq, reduceCtorEq] at hthrown <;>
      subst hthrown <;> cases hlocks
  | _ => exact .inr (.inr (hkept (by rintro ⟨⟩) (by simp)))

/-- The claim of a consumer is the one before, has just been committed, or is
the one before with the token that was read back. -/
theorem Moves.claim_cases (h : Moves target w p p' write) {c : Claim} (hc : p'.claim = some c) :
    p.claim = some c ∨
      (write = .row (.commitClaim none c.committed) ∧ c.token = c.committed ∧
        strip c.committed = c.committed ∧ c.committed ∉ w.shared.tokens ∧
        w.shared.row.paperExecutionAttemptCount < paperExecutionMaxAttempts) ∨
      ∃ d, p = .committed d ∧ p' = .starting c ∧ c = { d with token := c.token } ∧
        w.shared.row.paperExecutionToken = some c.token := by
  cases h with
  | claim hlt hfresh hstrip =>
    cases hc
    exact .inr (.inl ⟨rfl, rfl, hstrip, hfresh, hlt⟩)
  | @readBack d token htoken =>
    cases hc
    refine .inr (.inr ⟨d, rfl, rfl, rfl, ?_⟩)
    unfold usableToken at htoken
    split at htoken
    next hrow _ _ =>
      split at htoken
      · exact hrow.trans htoken
      · cases htoken
    · cases htoken
  | found hclaim _ => exact .inl (hclaim.trans hc)
  | refuse hp => rcases hp with rfl | rfl <;> exact .inl hc
  | complete hnext =>
    rcases hnext with rfl | rfl
    · cases hc
    · exact .inl hc
  | thrown hthrown =>
    cases p <;> simp only [Phase.thrown, Option.some.injEq, reduceCtorEq] at hthrown <;>
      subst hthrown <;> exact .inl hc
  | _ => first | exact .inl hc | cases hc

theorem readBack_event {d c : Claim}
    (h : advance target w (.committed d) e = some (.starting c, write)) : e = .next := by
  cases e <;> simp [advance, Phase.thrown, Phase.release] at h ⊢

theorem Custody.claim_cases (h : Custody w) {i : ℕ} (hfenced : w.Fenced (.consumer i e))
    (hadvance : advance target w (w.consumers i) e = some (p', write))
    (ht : w.perform write = some t) {c : Claim} (hc : p'.claim = some c) :
    (w.consumers i).claim = some c ∨
      (c.committed ∉ w.shared.tokens ∧ Held t.shared c) := by
  rcases (advance_moves hadvance).claim_cases hc with hsame |
    ⟨rfl, htoken, hstripped, hfresh, hlt⟩ | ⟨d, hphase, rfl, heq, hrow⟩
  · exact .inl hsame
  · obtain ⟨-, -, hstep⟩ := (perform_frame ht).2.2.2 _ rfl
    have hclaims : w.shared.claims (.commitClaim none c.committed) = some c.committed :=
      if_pos hlt
    exact .inr ⟨hfresh, htoken, hstripped, by simp [step_tokens hstep, hclaims]⟩
  · rw [hphase] at hadvance
    obtain rfl := readBack_event hadvance
    simp only [World.Fenced, hphase, Phase.Fenced] at hfenced
    have hd := h.held i d (by rw [hphase]; rfl)
    have htoken : c.token = d.token := (hfenced _ hrow).trans hd.token.symm
    left
    rw [hphase, heq, htoken]
    rfl

/-- A step that is not fenced off keeps the lock and the claim with one consumer. -/
theorem Custody.step (h : Custody w) (hfenced : w.Fenced a) (hstep : w.step target a = some w') :
    Custody w' := by
  cases a with
  | wait now =>
    simp only [World.step] at hstep
    split at hstep
    · cases hstep
      exact ⟨h.locks, h.once, h.held, h.distinct⟩
    · cases hstep
  | trade account =>
    cases hstep
    exact ⟨h.locks, h.once, h.held, h.distinct⟩
  | consumer i e =>
    obtain ⟨p', write, t, hadvance, hmoves, hperform, rfl⟩ := step_moves hstep
    obtain ⟨-, hconsumers, hrest⟩ := perform_frame hperform
    refine ⟨fun j hlocks => ?_, fun j k hj hk => ?_, fun j c hc => ?_,
      fun j k c hc d hd heq => ?_⟩
    · show t.shared.locked.isSome
      simp only [phase_after hconsumers] at hlocks
      rcases hmoves.locks hperform with ⟨-, htaken⟩ | ⟨hgives, hgiven⟩ | ⟨hkeeps, hlocked, -⟩
      · exact htaken
      · split at hlocks
        · exact absurd hlocks hgiven
        next hne => exact absurd (h.once j i hlocks hgives) hne
      · rw [hlocked]
        split at hlocks
        · exact h.locks i (hkeeps hlocks)
        · exact h.locks j hlocks
    · simp only [phase_after hconsumers] at hj hk
      rcases hmoves.locks hperform with ⟨hfree, -⟩ | ⟨-, hgiven⟩ | ⟨hkeeps, -⟩
      · have hnone (l : ℕ) (hl : (w.consumers l).Locks) : False := by
          simpa [hfree] using h.locks l hl
        split at hj
        next hji =>
          split at hk
          next hki => exact hji.trans hki.symm
          · exact (hnone k hk).elim
        · exact (hnone j hj).elim
      · split at hj
        · exact absurd hj hgiven
        split at hk
        · exact absurd hk hgiven
        · exact h.once j k hj hk
      · have hbefore (l : ℕ) (hl : (if l = i then p' else w.consumers l).Locks) :
            (w.consumers l).Locks := by
          split at hl
          next hli => exact hli ▸ hkeeps hl
          · exact hl
        exact h.once j k (hbefore j hj) (hbefore k hk)
    · have hkept {c : Claim} (hc : Held w.shared c) : Held t.shared c := by
        by_cases hrow : ∃ action, write = .row action
        · obtain ⟨action, rfl⟩ := hrow
          have htokens := step_tokens (hrest.2 action rfl).2.2
          exact ⟨hc.token, hc.stripped, by simp [htokens, hc.used]⟩
        · rw [hrest.1 fun action heq => hrow ⟨action, heq⟩]
          exact hc
      simp only [phase_after hconsumers] at hc
      split at hc
      · rcases h.claim_cases hfenced hadvance hperform hc with hsame | ⟨-, hnew⟩
        · exact hkept (h.held i c hsame)
        · exact hnew
      · exact hkept (h.held j c hc)
    · simp only [phase_after hconsumers] at hc hd
      have hfresh {l : ℕ} {c d : Claim} (hc : p'.claim = some c)
          (hd : (w.consumers l).claim = some d) (heq : c.committed = d.committed) : l = i := by
        rcases h.claim_cases hfenced hadvance hperform hc with hsame | ⟨hfresh, -⟩
        · exact h.distinct l i d hd c hsame heq.symm
        · exact absurd (heq ▸ (h.held l d hd).used) hfresh
      split at hc
      next hji =>
        split at hd
        next hki => exact hji.trans hki.symm
        next hki => exact absurd (hfresh hc hd heq) hki
      next hji =>
        split at hd
        · exact absurd (hfresh hd hc heq.symm) hji
        · exact h.distinct j k c hc d hd heq

section Unfilled

/-- The consumer takes the order to be absent or not filled. -/
def Phase.Unfilled : Phase → Prop
  | .checking _ => True
  | .submitting _ => True
  | .placing _ => True
  | .failing _ _ => True
  | p => ∃ order ∈ p.snapshot, order.status ≠ .filled

/-- What consumers and the row say of an order that is not filled: under the
current claim it is true, and so is what the end of the attempts has read. -/
structure Believed (w : World) : Prop where
  limit : ∀ i now seen, w.consumers i = .limitRead now seen →
    paperExecutionMaxAttempts ≤ w.shared.row.paperExecutionAttemptCount ∧
      (seen.any (·.status == "FILLED") = false → ¬ w.StoredFilled)
  current : ∀ i, (w.consumers i).Unfilled → ∀ c ∈ (w.consumers i).claim,
    w.shared.row.paperExecutionStatus = some .claimed →
    w.shared.row.paperExecutionToken = some c.committed → ¬ w.StoredFilled
  failed : w.shared.row.paperExecutionStatus = some .failed → ¬ w.StoredFilled

variable {order : PaperOrder} {i : ℕ} {action : RowAction String}

theorem unfilled_of_snapshot (h : p.snapshot = some order) (hunfilled : order.status ≠ .filled) :
    p.Unfilled := by
  cases p <;> simp only [Phase.snapshot, reduceCtorEq, Option.some.injEq] at h <;>
    exact ⟨order, by simp [Phase.snapshot, h], hunfilled⟩

theorem Tables.unfilled (h : Tables target w) (horder : order ∈ w.orders)
    (hunfilled : order.status ≠ .filled) : ¬ w.StoredFilled :=
  fun ⟨_, hother, hfilled⟩ => hunfilled (h.same horder hother ▸ hfilled)

/-- Where a consumer takes it from that the order is not filled: the table, what
it took to be so before, or what it writes itself. -/
theorem Moves.unfilled (h : Moves target w p p' write) (htables : Tables target w)
    (hunfilled : p'.Unfilled) :
    (∀ action, write ≠ .row action) ∧
      ((∀ loaded modified, write ≠ .updateOrder loaded modified) ∧
          (¬ w.StoredFilled ∨ p.Unfilled ∧ p.claim = p'.claim) ∨
        ∃ loaded modified, write = .updateOrder loaded modified ∧ p.snapshot = some loaded ∧
          modified.status ≠ .filled ∧ p.claim = p'.claim) := by
  have habsent (hnone : w.orderOfClient target.clientOrderId = none) : ¬ w.StoredFilled := by
    rintro ⟨order, horder, -⟩
    simp [htables.absent hnone] at horder
  have hread {order : PaperOrder} (horder : order ∈ w.orders)
      (hcases : ∃ other ∈ some order, other.status ≠ .filled) : ¬ w.StoredFilled := by
    obtain ⟨other, hother, hstatus⟩ := hcases
    cases hother
    exact htables.unfilled horder hstatus
  cases h with
  | startAbsent hnone => exact ⟨by simp, .inl ⟨by simp, .inl (habsent hnone)⟩⟩
  | checkAbsent hnone => exact ⟨by simp, .inl ⟨by simp, .inl (habsent hnone)⟩⟩
  | submitAbsent hnone => exact ⟨by simp, .inl ⟨by simp, .inl (habsent hnone)⟩⟩
  | raisedAbsent hnone => exact ⟨by simp, .inl ⟨by simp, .inl (habsent hnone)⟩⟩
  | found _ hmem => exact ⟨by simp, .inl ⟨by simp, .inl (hread hmem hunfilled)⟩⟩
  | readPlaced hmem => exact ⟨by simp, .inl ⟨by simp, .inl (hread hmem hunfilled)⟩⟩
  | reread _ hmem => exact ⟨by simp, .inl ⟨by simp, .inl (hread hmem hunfilled)⟩⟩
  | refreshed hmem => exact ⟨by simp, .inl ⟨by simp, .inl (hread hmem hunfilled)⟩⟩
  | refuse hp => rcases hp with rfl | rfl <;> exact ⟨by simp, .inl ⟨by simp, .inr ⟨trivial, rfl⟩⟩⟩
  | rejected => exact ⟨by simp, .inr ⟨_, _, rfl, rfl, by simp [PaperOrder.reject], rfl⟩⟩
  | apply _ _ =>
    obtain ⟨order, horder, hstatus⟩ := hunfilled
    cases horder
    exact ⟨by simp, .inr ⟨_, _, rfl, rfl, hstatus, rfl⟩⟩
  | orderRejected hstatus =>
    exact ⟨by simp, .inl ⟨by simp, .inr ⟨⟨_, rfl, by simp [hstatus]⟩, rfl⟩⟩⟩
  | latestRejected hlatest hstatus =>
    rcases hlatest with rfl | hmem
    · exact ⟨by simp, .inl ⟨by simp, .inr ⟨⟨_, rfl, by simp [hstatus]⟩, rfl⟩⟩⟩
    · exact ⟨by simp, .inl ⟨by simp, .inl (htables.unfilled hmem (by simp [hstatus]))⟩⟩
  | complete hnext => rcases hnext with rfl | rfl <;> obtain ⟨_, ⟨⟩, _⟩ := hunfilled
  | thrown hthrown =>
    refine ⟨by simp, .inl ⟨by simp, .inr ?_⟩⟩
    cases p <;> simp only [Phase.thrown, Option.some.injEq, reduceCtorEq] at hthrown <;>
      subst hthrown <;>
      first | exact ⟨hunfilled, rfl⟩ | obtain ⟨_, ⟨⟩, _⟩ := hunfilled
  | _ => first
      | obtain ⟨_, ⟨⟩, _⟩ := hunfilled; done
      | exact ⟨by simp, .inl ⟨by simp, .inr ⟨hunfilled, rfl⟩⟩⟩

theorem Books.filled_fenced (h : Books target w) (hfenced : w.Fenced (.consumer i e))
    (hadvance : advance target w (w.consumers i) e = some (p', write))
    (ht : w.perform write = some t) (hfilled : t.StoredFilled) :
    w.StoredFilled ∨ (∀ action, write ≠ .row action) ∧
      ∃ c, (w.consumers i).claim = some c ∧ c.Current w.shared := by
  have hmoves := advance_moves hadvance
  by_cases hupdate : ∃ loaded modified, write = .updateOrder loaded modified
  · obtain ⟨loaded, modified, rfl⟩ := hupdate
    obtain rfl := update_event hadvance
    generalize hphase : w.consumers i = p at hmoves
    have hknown (hsnapshot : p.snapshot = some loaded) : Known w loaded :=
      h.snapshots i loaded (hphase ▸ hsnapshot)
    cases hmoves with
    | rejected =>
      rw [h.filled_update (hknown rfl) ht] at hfilled
      split at hfilled
      · exact .inl hfilled
      · cases hfilled
    | apply hhas hok =>
      rw [h.filled_update (hknown rfl) ht, if_neg (h.apply_status hphase hok).1] at hfilled
      simp only [World.Fenced, hphase, Phase.Fenced] at hfenced
      refine .inr ⟨by simp, _, rfl, hfenced ?_⟩
      simp [PaperOrder.filledBy, hhas, hok, Except.toOption, hfilled]
  · exact .inl ((filled_perform_iff hmoves (fun loaded modified heq =>
      hupdate ⟨loaded, modified, heq⟩) ht).mp hfilled)

theorem row_step_claimed {token : String} (hstep : w.shared.step action = some t.shared)
    (hclaims : ∀ fresh ∈ w.shared.claims action, fresh ∉ w.shared.tokens)
    (hused : token ∈ w.shared.tokens) (hstatus : t.shared.row.paperExecutionStatus = some .claimed)
    (htoken : t.shared.row.paperExecutionToken = some token) :
    w.shared.row.paperExecutionStatus = some .claimed ∧
      w.shared.row.paperExecutionToken = some token := by
  cases step_effect hstep with
  | none _ hrow _ => exact hrow ▸ ⟨hstatus, htoken⟩
  | review decision now _ _ _ hrow _ =>
    exact ⟨by simpa [hrow] using hstatus, by simpa [hrow] using htoken⟩
  | ended _ final _ _ _ hopen _ _ hend =>
    exact absurd (Option.some.inj (hend.symm.trans hstatus)) hopen
  | claimed claimedAt fresh hmakes _ _ _ hrow _ =>
    obtain rfl : fresh = token := by simpa [hrow, AIRecommendation.claimed] using htoken
    exact absurd hused (hclaims fresh hmakes)
  | exhausted claimedAt order _ _ _ _ _ hrow _ =>
    rw [hrow] at hstatus
    simp only [AIRecommendation.attemptLimitReached] at hstatus
    split at hstatus <;> cases hstatus

theorem Believed.fresh (h : Believed w) (hmoves : Moves target w (w.consumers i) p' (.row action)) :
    ∀ token ∈ w.shared.claims action, token ∉ w.shared.tokens := by
  intro token htoken
  generalize hphase : w.consumers i = p at hmoves
  cases hmoves with
  | claim hlt hfresh _ =>
    rw [SharedRow.claims, if_pos hlt] at htoken
    exact Option.some.inj htoken ▸ hfresh
  | exhausted =>
    have hlimit := (h.limit i _ _ hphase).1
    rw [SharedRow.claims, if_neg hlimit.not_gt] at htoken
    cases htoken
  | _ => cases htoken

theorem Believed.step_failed (h : Believed w) (hcustody : Custody w)
    (hmoves : Moves target w (w.consumers i) p' (.row action))
    (hstep : w.shared.step action = some t.shared)
    (hfailed : t.shared.row.paperExecutionStatus = some .failed) : ¬ w.StoredFilled := by
  rcases Recommendation.step_failed hstep hfailed with hbefore |
    ⟨hstatus, token, hpresented, hends, htoken⟩ | ⟨order, token, rfl, hlimit, hunfilled⟩
  · exact h.failed hbefore
  · generalize hphase : w.consumers i = p at hmoves
    cases hmoves with
    | @fail c reason =>
      have hheld := hcustody.held i c (by rw [hphase]; rfl)
      obtain rfl : strip c.token = token := Option.some.inj hpresented
      refine h.current i (by rw [hphase]; trivial) c (by rw [hphase]; rfl) hstatus ?_
      rw [htoken, hheld.token, hheld.stripped]
    | _ => simp [RowAction.ends] at hends
  · generalize hphase : w.consumers i = p at hmoves
    cases hmoves with
    | claim hlt _ _ => simp [SharedRow.claims, hlt] at hlimit
    | exhausted => exact (h.limit i _ _ hphase).2 hunfilled

section Consumer

variable {i : ℕ} (h : Believed w) (hbooks : Books target w) (hcustody : Custody w)
  (hfenced : w.Fenced (.consumer i e))
  (hadvance : advance target w (w.consumers i) e = some (p', write))
  (ht : w.perform write = some t)

include h hbooks hcustody hfenced hadvance ht in
theorem Believed.limit_other {j : ℕ} (hne : j ≠ i) {now : Instant}
    {seen : Option AIRecommendation.OrderSeen} (hphase : w.consumers j = .limitRead now seen) :
    paperExecutionMaxAttempts ≤ t.shared.row.paperExecutionAttemptCount ∧
      (seen.any (·.status == "FILLED") = false → ¬ t.StoredFilled) := by
  have hlocks : (w.consumers j).Locks := by
    rw [hphase]
    rfl
  have hlocked : w.shared.locked ≠ none := by
    simpa [Option.isSome_iff_ne_none] using hcustody.locks j hlocks
  have hrow : ∀ action, write ≠ .row action := by
    rcases (advance_moves hadvance).locks ht with ⟨hfree, -⟩ | ⟨hother, -⟩ | ⟨-, -, hrow | hfree⟩
    · exact absurd hfree hlocked
    · exact absurd (hcustody.once j i hlocks hother) hne
    · exact hrow
    · exact absurd hfree hlocked
  obtain ⟨hlimit, hunfilled⟩ := h.limit j now seen hphase
  rw [(perform_frame ht).2.2.1 hrow]
  refine ⟨hlimit, fun hseen hfilled => ?_⟩
  rcases hbooks.filled_fenced hfenced hadvance ht hfilled with hbefore | ⟨-, _, -, hfree, -⟩
  · exact hunfilled hseen hbefore
  · exact hlocked hfree

include hbooks hadvance ht in
theorem Books.limit_read {now : Instant} {seen : Option AIRecommendation.OrderSeen}
    (hphase : p' = .limitRead now seen) :
    paperExecutionMaxAttempts ≤ t.shared.row.paperExecutionAttemptCount ∧
      (seen.any (·.status == "FILLED") = false → ¬ t.StoredFilled) := by
  subst hphase
  have hmoves := advance_moves hadvance
  generalize w.consumers i = p at hmoves
  cases hmoves with
  | readLimit hlimit =>
    cases ht
    refine ⟨hlimit, fun hseen ⟨order, horder, hfilled⟩ => ?_⟩
    cases hfound : w.orderOfClient target.clientOrderId with
    | none => simp [hbooks.absent hfound] at horder
    | some found =>
      obtain rfl := hbooks.same horder (mem_of_orderOfClient hfound)
      simp [hfound, hfilled, Paper.OrderStatus.text] at hseen
  | complete hnext => rcases hnext with hnext | hnext <;> cases hnext
  | thrown hthrown => cases p <;> simp [Phase.thrown] at hthrown

include h hbooks hadvance ht in
theorem Believed.current_own (hunfilled : p'.Unfilled) {c : Claim} (hc : p'.claim = some c)
    (hstatus : t.shared.row.paperExecutionStatus = some .claimed)
    (htoken : t.shared.row.paperExecutionToken = some c.committed) : ¬ t.StoredFilled := by
  have hmoves := advance_moves hadvance
  obtain ⟨hrow, hcases⟩ := hmoves.unfilled hbooks.toTables hunfilled
  rw [(perform_frame ht).2.2.1 hrow] at hstatus htoken
  have hbefore (hp : (w.consumers i).Unfilled) (hclaim : (w.consumers i).claim = p'.claim) :
      ¬ w.StoredFilled := h.current i hp c (hclaim.trans hc) hstatus htoken
  rcases hcases with ⟨hupdate, hread⟩ | ⟨loaded, modified, rfl, hsnapshot, hopen, hclaim⟩
  · rw [filled_perform_iff hmoves hupdate ht]
    exact hread.elim id fun ⟨hp, hclaim⟩ => hbefore hp hclaim
  · rw [hbooks.filled_update (hbooks.snapshots i loaded hsnapshot) ht]
    split
    next hsame => exact hbefore (unfilled_of_snapshot hsnapshot (hsame ▸ hopen)) hclaim
    · exact hopen

include h hbooks hcustody hfenced hadvance ht in
theorem Believed.current_other {j : ℕ} (hne : j ≠ i) (hunfilled : (w.consumers j).Unfilled)
    {c : Claim} (hc : (w.consumers j).claim = some c)
    (hstatus : t.shared.row.paperExecutionStatus = some .claimed)
    (htoken : t.shared.row.paperExecutionToken = some c.committed) : ¬ t.StoredFilled := by
  have hmoves := advance_moves hadvance
  obtain ⟨-, -, hshared, haction⟩ := perform_frame ht
  have hbefore : w.shared.row.paperExecutionStatus = some .claimed ∧
      w.shared.row.paperExecutionToken = some c.committed := by
    by_cases hrow : ∃ action, write = .row action
    · obtain ⟨action, rfl⟩ := hrow
      exact row_step_claimed (haction action rfl).2.2 (h.fresh hmoves)
        (hcustody.held j c hc).used hstatus htoken
    · rw [← hshared fun action heq => hrow ⟨action, heq⟩]
      exact ⟨hstatus, htoken⟩
  intro hfilled
  rcases hbooks.filled_fenced hfenced hadvance ht hfilled with hstored |
    ⟨-, d, hd, -, -, hcurrent⟩
  · exact h.current j hunfilled c hc hbefore.1 hbefore.2 hstored
  · have hsame : c.committed = d.committed := Option.some.inj (hbefore.2.symm.trans hcurrent)
    exact hne (hcustody.distinct j i c hc d hd hsame)

include h hbooks hcustody hfenced hadvance ht in
theorem Believed.failed_kept (hfailed : t.shared.row.paperExecutionStatus = some .failed) :
    ¬ t.StoredFilled := by
  have hmoves := advance_moves hadvance
  obtain ⟨-, -, hshared, haction⟩ := perform_frame ht
  intro hfilled
  rcases hbooks.filled_fenced hfenced hadvance ht hfilled with hbefore |
    ⟨hrow, c, -, -, hclaimed, -⟩
  · by_cases hrow : ∃ action, write = .row action
    · obtain ⟨action, rfl⟩ := hrow
      exact h.step_failed hcustody hmoves (haction action rfl).2.2 hfailed hbefore
    · rw [hshared fun action heq => hrow ⟨action, heq⟩] at hfailed
      exact h.failed hfailed hbefore
  · rw [hshared hrow, hclaimed] at hfailed
    cases hfailed

end Consumer

/-- Under the current claim what consumers and the row say of an open order stays true. -/
theorem Believed.step (h : Believed w) (hbooks : Books target w) (hcustody : Custody w)
    (hfenced : w.Fenced a) (hstep : w.step target a = some w') : Believed w' := by
  cases a with
  | wait now =>
    simp only [World.step] at hstep
    split at hstep
    · cases hstep
      exact ⟨h.limit, h.current, h.failed⟩
    · cases hstep
  | trade account =>
    cases hstep
    exact ⟨h.limit, h.current, h.failed⟩
  | consumer i e =>
    obtain ⟨p', write, t, hadvance, -, hperform, rfl⟩ := step_moves hstep
    obtain ⟨-, hconsumers, -⟩ := perform_frame hperform
    refine ⟨fun j now seen hphase => ?_, fun j hunfilled c hc hstatus htoken => ?_,
      fun hfailed => ?_⟩
    · simp only [phase_after hconsumers] at hphase
      split at hphase
      · exact hbooks.limit_read hadvance hperform hphase
      next hne => exact h.limit_other hbooks hcustody hfenced hadvance hperform hne hphase
    · show ¬ t.StoredFilled
      simp only [phase_after hconsumers] at hunfilled hc
      split at hc
      next hji =>
        rw [if_pos hji] at hunfilled
        exact h.current_own hbooks hadvance hperform hunfilled hc hstatus htoken
      next hne =>
        rw [if_neg hne] at hunfilled
        exact h.current_other hbooks hcustody hfenced hadvance hperform hne hunfilled hc
          hstatus htoken
    · show ¬ t.StoredFilled
      exact h.failed_kept hbooks hcustody hfenced hadvance hperform hfailed

end Unfilled

theorem reachable_custody
    (h : ReachableVia World.Start (World.step target) World.Fenced w) : Custody w := by
  refine invariant (fun s hs => ?_) (fun _ _ _ hinv hfenced hst => hinv.step hfenced hst) h
  obtain ⟨-, -, -, -, hidle⟩ := hs
  have hfree (i : ℕ) : ¬ (s.consumers i).Locks := by
    rw [hidle]
    nofun
  have hnone (i : ℕ) (c : Claim) (hc : c ∈ (s.consumers i).claim) : False := by
    simp [hidle, Phase.claim] at hc
  exact ⟨fun i hi => absurd hi (hfree i), fun i _ hi => absurd hi (hfree i),
    fun i c hc => (hnone i c hc).elim, fun i _ c hc => (hnone i c hc).elim⟩

theorem reachable_believed
    (h : ReachableVia World.Start (World.step target) World.Fenced w) : Believed w := by
  refine invariant_of_reachable (fun s hs => ?_) (fun _ _ _ hreach hinv hfenced hst => ?_) h
  · obtain ⟨hcreated, -, horders, -, hidle⟩ := hs
    have hunfilled : ¬ s.StoredFilled := by simp [World.StoredFilled, horders]
    exact ⟨fun i _ _ hphase => by simp [hidle] at hphase, fun _ _ _ _ _ _ => hunfilled,
      fun _ => hunfilled⟩
  · exact hinv.step (reachable_books (hreach.mono fun _ _ _ => trivial))
      (reachable_custody hreach) hfenced hst

/-- A failure that is recorded is final. -/
theorem failed_step (h : Reachable World.Start (World.step target) w)
    (hfailed : w.shared.row.paperExecutionStatus = some .failed)
    (hstep : w.step target a = some w') :
    w'.shared.row.paperExecutionStatus = some .failed := by
  rcases step_shared hstep with hsame | ⟨action, hrow⟩
  · rw [hsame, hfailed]
  · rw [(reachable_claims h).terminal_step (.inr (.inl hfailed)) hrow, hfailed]

/-- Over every interleaving of consumers, crashes and expiring leases whose
fills are fenced by their claims, a failed recommendation has no filled order
of its client id, and gets none afterwards. -/
theorem failed_never_filled (target : Target)
    (h : ReachableVia World.Start (World.step target) World.Fenced w)
    (hfailed : w.shared.row.paperExecutionStatus = some .failed)
    (hlater : ReachableVia (· = w) (World.step target) World.Fenced w') :
    w'.shared.row.paperExecutionStatus = some .failed ∧
      ∀ order ∈ w'.orders, order.clientOrderId = target.clientOrderId →
        order.status ≠ .filled := by
  have hreach : ReachableVia World.Start (World.step target) World.Fenced w' ∧
      w'.shared.row.paperExecutionStatus = some .failed := by
    induction hlater with
    | start hs => exact hs ▸ ⟨h, hfailed⟩
    | step _ hfenced hstep ih =>
      exact ⟨.step ih.1 hfenced hstep,
        failed_step (ih.1.mono fun _ _ _ => trivial) ih.2 hstep⟩
  refine ⟨hreach.2, fun order horder _ hfilled => ?_⟩
  exact (reachable_believed hreach.1).failed hreach.2 ⟨order, horder, hfilled⟩

/-- The holding is sold by hand before the order is executed, so the order is
rejected and the recommendation fails. -/
def refusedExit : List Action :=
  claimBy 0 0 "first" ++ submitBy 0 ++
    [.trade ⟨true, 1000, 0⟩, .consumer 0 (.execute 1 1000), .consumer 0 .next,
     .consumer 0 .next, .consumer 0 .next, .consumer 0 .next, .consumer 0 .fail]

/-- A refused exit, whose failure no later step contradicts. -/
theorem failed_never_filled_refused :
    ∃ w, run (World.step exitTarget) beforeClaims refusedExit = some w ∧
      w.orders.map (·.status) = [.rejected] ∧
      ∀ w', ReachableVia (· = w) (World.step exitTarget) World.Fenced w' →
        w'.shared.row.paperExecutionStatus = some .failed ∧
          ∀ order ∈ w'.orders, order.clientOrderId = exitTarget.clientOrderId →
            order.status ≠ .filled := by
  obtain ⟨w, hrun, hfailed, hrejected⟩ :
      ∃ w, run (World.step exitTarget) beforeClaims refusedExit = some w ∧
        w.shared.row.paperExecutionStatus = some .failed ∧
        w.orders.map (·.status) = [.rejected] :=
    exists_run (by decide +kernel)
  have hfenced : Along (World.step exitTarget) World.Fenced beforeClaims refusedExit := by
    decide +kernel
  exact ⟨w, hrun, hrejected, fun w' hlater => failed_never_filled exitTarget
    ((ReachableVia.start start_beforeClaims).run hfenced hrun) hfailed hlater⟩

/-- A consumer that outlives its lease before it places its order fills it after
the next consumer has concluded that there is none, and failed. -/
def lateFill : List Action :=
  claimBy 0 0 "first" ++ (submitBy 0).take 3 ++ [.wait paperExecutionLease] ++
    claimBy 1 paperExecutionLease "second" ++
    [.consumer 1 .next, .consumer 1 (.refuse "risk_preview_rejected"), .consumer 1 .fail] ++
    (submitBy 0).drop 3 ++ fillBy 0

/-- A worker that has lost its claim commits a fill after the failure was recorded. -/
theorem late_fill_over_failed :
    ∃ w, run (World.step exitTarget) beforeClaims lateFill = some w ∧
      w.shared.row.paperExecutionStatus = some .failed ∧
      ∃ order ∈ w.orders, order.clientOrderId = exitTarget.clientOrderId ∧
        order.status = .filled :=
  exists_run (by decide +kernel)

end KAssetTrader.Consumer
