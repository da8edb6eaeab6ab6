import KAssetTrader.Consumer.Protocol

/-!
What one step of a consumer can do, as a relation with a case for each of its
ways: the phase it moves to and what it writes. Every invariant of the protocol
is proved from these cases.
-/

namespace KAssetTrader.Consumer

open Position Recommendation Transition
open Paper (CorrelationId)
open Unicode (strip)

variable {target : Target} {w : World} {p p' : Phase} {e : Event} {write : Write}

variable {order : PaperOrder} {trade : PaperTrade} {i : ℕ} {t : World}

theorem mem_of_orderOfClient {clientOrderId : String}
    (h : w.orderOfClient clientOrderId = some order) : order ∈ w.orders :=
  List.mem_of_find?_eq_some h

theorem mem_of_order {orderId : String} (h : w.order orderId = some order) :
    order ∈ w.orders ∧ order.id = orderId :=
  ⟨List.mem_of_find?_eq_some h, by simpa using List.find?_some h⟩

theorem mem_of_trade {correlationId : CorrelationId} (h : w.trade correlationId = some trade) :
    trade ∈ w.trades :=
  List.mem_of_find?_eq_some h

def Phase.claim : Phase → Option Claim
  | .idle => none
  | .selected _ => none
  | .limitRead _ _ => none
  | .committed c => some c
  | .starting c => some c
  | .checking c => some c
  | .submitting c => some c
  | .placing c => some c
  | .placed c _ => some c
  | .conflicted c => some c
  | .reconciling c _ _ => some c
  | .filling c _ _ => some c
  | .executing c _ _ => some c
  | .rejecting c _ _ => some c
  | .duplicate c _ _ => some c
  | .executed c _ _ => some c
  | .applying c _ _ _ => some c
  | .applied c _ _ => some c
  | .settled c _ _ => some c
  | .raised c _ _ => some c
  | .completing c _ => some c
  | .reconcilingCompletion c _ => some c
  | .failing c _ => some c

inductive Moves (target : Target) (w : World) : Phase → Phase → Write → Prop
  | select {now : Instant} {recommendationId : Option String} {automationOnly : Bool} :
      now ≤ w.clock →
      Moves target w .idle (.selected now)
        (.row (.select target.ownerUserId now recommendationId automationOnly))
  | readLimit {now : Instant} :
      paperExecutionMaxAttempts ≤ w.shared.row.paperExecutionAttemptCount →
      Moves target w (.selected now)
        (.limitRead now ((w.orderOfClient target.clientOrderId).map fun order =>
          { id := order.id, status := order.status.text })) .nothing
  | claim {now : Instant} {token : String} :
      w.shared.row.paperExecutionAttemptCount < paperExecutionMaxAttempts →
      token ∉ w.shared.tokens → strip token = token →
      Moves target w (.selected now)
        (.committed ⟨now, token, normalizedNow now + paperExecutionLease, token⟩)
        (.row (.commitClaim none token))
  | exhausted {now : Instant} {seen : Option AIRecommendation.OrderSeen} {token : String} :
      Moves target w (.limitRead now seen) .idle (.row (.commitClaim seen token))
  | readBack {c : Claim} {token : String} : usableToken w.shared.row c.now = some token →
      Moves target w (.committed c) (.starting { c with token }) .nothing
  | stop {p : Phase} : p.release = .nothing → Moves target w p .idle .nothing
  | rollback {p : Phase} : p.release = .row .rollback → Moves target w p .idle (.row .rollback)
  | startAbsent {c : Claim} : w.orderOfClient target.clientOrderId = none →
      Moves target w (.starting c) (.checking c) .nothing
  | checkAbsent {c : Claim} : w.orderOfClient target.clientOrderId = none →
      Moves target w (.checking c) (.submitting c) .nothing
  | submitAbsent {c : Claim} : w.orderOfClient target.clientOrderId = none →
      Moves target w (.submitting c) (.placing c) .nothing
  | raisedAbsent {c : Claim} {order : Option PaperOrder} {reason : String} :
      w.orderOfClient target.clientOrderId = none →
      Moves target w (.raised c true order) (.failing c reason) .nothing
  | found {p : Phase} {c : Claim} {inSubmit : Bool} {order : PaperOrder} :
      p.claim = some c → order ∈ w.orders →
      Moves target w p (.reconciling c inSubmit order) .nothing
  | refuse {p : Phase} {c : Claim} {reason : String} : p = .checking c ∨ p = .submitting c →
      Moves target w p (.failing c reason) .nothing
  | place {c : Claim} {orderId : String} {quantity : Decimal} :
      0 < quantity → w.orderOfClient target.clientOrderId = none →
      Moves target w (.placing c) (.placed c orderId)
        (.insertOrder { id := orderId, clientOrderId := target.clientOrderId
                        side := sideOf w.shared.row, quantity })
  | conflict {c : Claim} : Moves target w (.placing c) (.conflicted c) .nothing
  | readPlaced {c : Claim} {orderId : String} {order : PaperOrder} : order ∈ w.orders →
      Moves target w (.placed c orderId) (.filling c true order) .nothing
  | reconciled {c : Claim} {inSubmit : Bool} {order : PaperOrder} : order.status ≠ .pending →
      Moves target w (.reconciling c inSubmit order) (.settled c inSubmit order) .nothing
  | pendingTrade {c : Claim} {inSubmit : Bool} {order : PaperOrder} {trade : PaperTrade} :
      order.status = .pending → trade ∈ w.trades →
      Moves target w (.reconciling c inSubmit order) (.applying c inSubmit order trade) .nothing
  | pendingOpen {c : Claim} {inSubmit : Bool} {order : PaperOrder} : order.status = .pending →
      Moves target w (.reconciling c inSubmit order) (.filling c inSubmit order) .nothing
  | fillTrade {c : Claim} {inSubmit : Bool} {order : PaperOrder} {trade : PaperTrade} :
      trade ∈ w.trades →
      Moves target w (.filling c inSubmit order) (.applying c inSubmit order trade) .nothing
  | fillOpen {c : Claim} {inSubmit : Bool} {order : PaperOrder} :
      Moves target w (.filling c inSubmit order) (.executing c inSubmit order) .nothing
  | refused {c : Claim} {inSubmit : Bool} {order : PaperOrder} :
      Moves target w (.executing c inSubmit order) (.rejecting c inSubmit order) .nothing
  | duplicated {c : Claim} {inSubmit : Bool} {order : PaperOrder} :
      Moves target w (.executing c inSubmit order) (.duplicate c inSubmit order) .nothing
  | executed {c : Claim} {inSubmit : Bool} {order : PaperOrder} {tradeId : ℤ}
      {settled totalCost : Decimal} {account : PaperAccount} :
      w.trade order.correlationId = none →
      executeOrder target.market w.account order.side (order.quantity - order.filledQuantity)
        totalCost = .ok (settled, account) →
      Moves target w (.executing c inSubmit order) (.executed c inSubmit order)
        (.insertTrade { id := tradeId, correlationId := order.correlationId
                        quantity := settled } account)
  | rejected {c : Claim} {inSubmit : Bool} {order : PaperOrder} :
      Moves target w (.rejecting c inSubmit order) (.raised c inSubmit (some order.reject))
        (.updateOrder order order.reject)
  | reread {c : Claim} {inSubmit : Bool} {order fresh : PaperOrder} {trade : PaperTrade} :
      trade ∈ w.trades → fresh ∈ w.orders →
      Moves target w (.duplicate c inSubmit order) (.applying c inSubmit fresh trade) .nothing
  | executedTrade {c : Claim} {inSubmit : Bool} {order : PaperOrder} {trade : PaperTrade} :
      trade ∈ w.trades →
      Moves target w (.executed c inSubmit order) (.applying c inSubmit order trade) .nothing
  | hasTrade {c : Claim} {inSubmit : Bool} {order : PaperOrder} {trade : PaperTrade} :
      order.hasTrade trade = true →
      Moves target w (.applying c inSubmit order trade) (.settled c inSubmit order) .nothing
  | apply {c : Claim} {inSubmit : Bool} {order : PaperOrder} {trade : PaperTrade}
      {modified : PaperOrder} :
      order.hasTrade trade = false → order.withTrade trade = .ok modified →
      Moves target w (.applying c inSubmit order trade) (.applied c inSubmit modified)
        (.updateOrder order modified)
  | refreshed {c : Claim} {inSubmit : Bool} {order fresh : PaperOrder} : fresh ∈ w.orders →
      Moves target w (.applied c inSubmit order) (.settled c inSubmit fresh) .nothing
  | orderRejected {c : Claim} {inSubmit : Bool} {order : PaperOrder} : order.status = .rejected →
      Moves target w (.settled c inSubmit order) (.failing c "paper_order_rejected") .nothing
  | orderFilled {c : Claim} {inSubmit : Bool} {order : PaperOrder} : order.status = .filled →
      Moves target w (.settled c inSubmit order) (.completing c order.id) .nothing
  | latestRejected {c : Claim} {order : Option PaperOrder} {latest : PaperOrder} :
      order = some latest ∨ latest ∈ w.orders →
      latest.status = .rejected →
      Moves target w (.raised c false order) (.failing c "paper_order_rejected") .nothing
  | thrown {p p' : Phase} : p.thrown = some p' → Moves target w p p' .nothing
  | complete {c : Claim} {orderId : String} {p' : Phase} :
      p' = .idle ∨ p' = .reconcilingCompletion c orderId →
      Moves target w (.completing c orderId) p'
        (.row (.complete target.ownerUserId target.recommendationId c.token orderId
          (w.order orderId).isSome c.now))
  | reconcile {c : Claim} {orderId : String} {seen : AIRecommendation String} :
      Moves target w (.reconcilingCompletion c orderId) .idle
        (.row (.reconcile seen target.ownerUserId target.recommendationId c.token orderId
          (w.order orderId).isSome c.now))
  | fail {c : Claim} {reason : String} :
      Moves target w (.failing c reason) .idle
        (.row (.fail target.ownerUserId target.recommendationId c.token reason c.now))

theorem lookUp_cases {absent : Phase} {found : PaperOrder → Phase}
    (h : lookUp target w absent found = p') :
    (w.orderOfClient target.clientOrderId = none ∧ p' = absent) ∨
      ∃ order ∈ w.orders, p' = found order := by
  unfold lookUp at h
  split at h
  next hnone => exact .inl ⟨hnone, h.symm⟩
  next order horder => exact .inr ⟨order, mem_of_orderOfClient horder, h.symm⟩

variable {c : Claim} {inSubmit : Bool} {w' : World}

theorem execute_moves {tradeId : ℤ} {totalCost : Decimal}
    (h : execute target w c inSubmit order tradeId totalCost = some (p', write)) :
    Moves target w (.executing c inSubmit order) p' write := by
  unfold execute at h
  split at h
  · cases h
    exact .refused
  next settled account hok =>
  split at h
  · cases h
    exact .duplicated
  next hnone =>
  split at h
  · cases h
    exact .executed (by simpa using hnone) hok
  · cases h

theorem applyTrade_moves (h : applyTrade c inSubmit order trade = (p', write)) :
    Moves target w (.applying c inSubmit order trade) p' write := by
  unfold applyTrade at h
  split at h
  next hhas =>
    cases h
    exact .hasTrade hhas
  next hhas =>
  split at h
  · cases h
    exact .thrown rfl
  next modified hok =>
    cases h
    exact .apply (Bool.eq_false_iff.mpr hhas) hok

theorem reconcileExisting_moves (h : reconcileExisting w c inSubmit order = p') :
    Moves target w (.reconciling c inSubmit order) p' .nothing := by
  unfold reconcileExisting at h
  split at h
  next hstatus => exact h ▸ .reconciled hstatus
  next hstatus =>
  have hpending : order.status = .pending := not_not.mp hstatus
  split at h
  next trade htrade => exact h ▸ .pendingTrade hpending (mem_of_trade htrade)
  · exact h ▸ .pendingOpen hpending

theorem fill_moves (h : fill w c inSubmit order = p') :
    Moves target w (.filling c inSubmit order) p' .nothing := by
  unfold fill at h
  split at h
  next trade htrade => exact h ▸ .fillTrade (mem_of_trade htrade)
  · exact h ▸ .fillOpen

theorem finishOrder_moves (h : finishOrder c order = p') :
    Moves target w (.settled c inSubmit order) p' .nothing := by
  unfold finishOrder at h
  split at h
  next hstatus => exact h ▸ .orderRejected hstatus
  next hstatus => exact h ▸ .orderFilled hstatus
  · exact h ▸ .stop rfl

/-- Every step of a consumer is one of the moves. -/
theorem advance_moves (h : advance target w p e = some (p', write)) :
    Moves target w p p' write := by
  have hpair {x : Phase × Write} (hx : some x = some (p', write)) : x.1 = p' ∧ x.2 = write := by
    cases hx
    exact ⟨rfl, rfl⟩
  have hfound {c : Claim} {absent : Phase} {inSubmit : Bool} (hc : p.claim = some c)
      (habsent : w.orderOfClient target.clientOrderId = none → Moves target w p absent .nothing)
      (h : some (lookUp target w absent (.reconciling c inSubmit), Write.nothing) =
        some (p', write)) : Moves target w p p' write := by
    obtain ⟨hp, rfl⟩ := hpair h
    rcases lookUp_cases hp with ⟨hnone, rfl⟩ | ⟨order, horder, rfl⟩
    · exact habsent hnone
    · exact .found hc horder
  unfold advance at h
  split at h
  case h_1 =>
    split at h
    next hnow =>
      obtain ⟨rfl, rfl⟩ := hpair h
      exact .select hnow
    · cases h
  case h_2 =>
    split at h
    next hlimit =>
      obtain ⟨rfl, rfl⟩ := hpair h
      exact .readLimit hlimit
    · cases h
  case h_3 =>
    split at h
    next hclaim =>
      obtain ⟨rfl, rfl⟩ := hpair h
      exact .claim hclaim.1 hclaim.2.1 hclaim.2.2
    · cases h
  case h_4 =>
    obtain ⟨rfl, rfl⟩ := hpair h
    exact .exhausted
  case h_5 =>
    split at h
    next token htoken =>
      obtain ⟨rfl, rfl⟩ := hpair h
      exact .readBack htoken
    · obtain ⟨rfl, rfl⟩ := hpair h
      exact .stop rfl
  case h_6 => exact hfound rfl .startAbsent h
  case h_7 => exact hfound rfl .checkAbsent h
  case h_8 =>
    obtain ⟨rfl, rfl⟩ := hpair h
    exact .refuse (.inl rfl)
  case h_9 => exact hfound rfl .submitAbsent h
  case h_10 =>
    obtain ⟨rfl, rfl⟩ := hpair h
    exact .refuse (.inr rfl)
  case h_11 =>
    split at h
    next hplace =>
      split at h
      · obtain ⟨rfl, rfl⟩ := hpair h
        exact .conflict
      next hnone =>
        obtain ⟨rfl, rfl⟩ := hpair h
        exact .place hplace.1 (by simpa using hnone)
    · cases h
  case h_12 =>
    obtain ⟨order, horder, hpair⟩ := Option.map_eq_some_iff.mp h
    cases hpair
    exact .readPlaced (mem_of_order horder).1
  case h_13 => exact hfound rfl (fun _ => .thrown rfl) h
  case h_14 =>
    obtain ⟨hp, rfl⟩ := hpair h
    exact reconcileExisting_moves hp
  case h_15 =>
    obtain ⟨hp, rfl⟩ := hpair h
    exact fill_moves hp
  case h_16 => exact execute_moves h
  case h_17 =>
    obtain ⟨rfl, rfl⟩ := hpair h
    exact .rejected
  case h_18 =>
    split at h
    next trade fresh htrade hfresh =>
      obtain ⟨rfl, rfl⟩ := hpair h
      exact .reread (mem_of_trade htrade) (mem_of_order hfresh).1
    · obtain ⟨rfl, rfl⟩ := hpair h
      exact .thrown rfl
  case h_19 =>
    split at h
    next trade htrade =>
      obtain ⟨rfl, rfl⟩ := hpair h
      exact .executedTrade (mem_of_trade htrade)
    · obtain ⟨rfl, rfl⟩ := hpair h
      exact .thrown rfl
  case h_20 => exact applyTrade_moves (Option.some.inj h)
  case h_21 =>
    obtain ⟨fresh, hfresh, hpair⟩ := Option.map_eq_some_iff.mp h
    cases hpair
    exact .refreshed (mem_of_order hfresh).1
  case h_22 =>
    obtain ⟨hp, rfl⟩ := hpair h
    exact finishOrder_moves hp
  case h_23 => exact hfound rfl (fun _ => .stop rfl) h
  case h_24 => exact hfound rfl .raisedAbsent h
  case h_25 =>
    split at h
    next latest hlatest =>
      split at h
      next hstatus =>
        obtain ⟨rfl, rfl⟩ := hpair h
        refine Moves.latestRejected ?_ hstatus
        rcases Option.or_eq_some_iff.mp hlatest with hmemory | ⟨-, hstored⟩
        · exact .inl hmemory
        · exact .inr (mem_of_orderOfClient hstored)
      · obtain ⟨rfl, rfl⟩ := hpair h
        exact .stop rfl
    · obtain ⟨rfl, rfl⟩ := hpair h
      exact .stop rfl
  case h_26 =>
    obtain ⟨rfl, rfl⟩ := hpair h
    refine .complete ?_
    split
    · exact .inr rfl
    · exact .inl rfl
  case h_27 =>
    obtain ⟨rfl, rfl⟩ := hpair h
    exact .reconcile
  case h_28 =>
    obtain ⟨rfl, rfl⟩ := hpair h
    exact .fail
  case h_29 =>
    obtain ⟨raised, hraised, hpair⟩ := Option.map_eq_some_iff.mp h
    cases hpair
    exact .thrown hraised
  case h_30 =>
    obtain ⟨rfl, rfl⟩ := hpair h
    have hrelease : p.release = .nothing ∨ p.release = .row .rollback := by
      cases p <;> simp [Phase.release]
    rcases hrelease with hnothing | hrollback
    · exact hnothing ▸ .stop hnothing
    · exact hrollback ▸ .rollback hrollback
  case h_31 => cases h

theorem step_moves (h : w.step target (.consumer i e) = some w') :
    ∃ p' write t, advance target w (w.consumers i) e = some (p', write) ∧
      Moves target w (w.consumers i) p' write ∧ w.perform write = some t ∧
      w' = { t with consumers := Function.update t.consumers i p' } := by
  obtain ⟨⟨p', write⟩, hadvance, h⟩ := Option.bind_eq_some_iff.mp h
  obtain ⟨t, hperform, rfl⟩ := Option.map_eq_some_iff.mp h
  exact ⟨p', write, t, hadvance, advance_moves hadvance, hperform, rfl⟩

theorem phase_after (h : t.consumers = w.consumers) (j : ℕ) :
    Function.update t.consumers i p' j = if j = i then p' else w.consumers j := by
  rw [h, Function.update_apply]

theorem update_event {loaded modified : PaperOrder}
    (h : advance target w p e = some (p', .updateOrder loaded modified)) : e = .next := by
  cases advance_moves h with
  | rejected => cases e <;> simp [advance, Phase.thrown, Phase.release] at h ⊢
  | apply => cases e <;> simp [advance, Phase.thrown, Phase.release] at h ⊢

theorem perform_frame (h : w.perform write = some t) :
    t.clock = w.clock ∧ t.consumers = w.consumers ∧
      ((∀ action, write ≠ .row action) → t.shared = w.shared) ∧
      (∀ action, write = .row action → t.orders = w.orders ∧ t.trades = w.trades ∧
        w.shared.step action = some t.shared) := by
  cases write with
  | row action =>
    obtain ⟨shared, hstep, rfl⟩ := Option.map_eq_some_iff.mp h
    refine ⟨rfl, rfl, fun hne => absurd rfl (hne action), ?_⟩
    rintro _ ⟨⟩
    exact ⟨rfl, rfl, hstep⟩
  | _ =>
    cases h
    exact ⟨rfl, rfl, fun _ => rfl, by simp⟩

theorem step_shared {a : Action} (h : w.step target a = some w') :
    w'.shared = w.shared ∨ ∃ action, w.shared.step action = some w'.shared := by
  cases a with
  | wait now =>
    simp only [World.step] at h
    split at h
    · cases h
      exact .inl rfl
    · cases h
  | trade account =>
    cases h
    exact .inl rfl
  | consumer i e =>
    obtain ⟨p', write, t, -, -, hperform, rfl⟩ := step_moves h
    obtain ⟨-, -, hshared, haction⟩ := perform_frame hperform
    by_cases hrow : ∃ action, write = .row action
    · obtain ⟨action, rfl⟩ := hrow
      exact .inr ⟨action, (haction action rfl).2.2⟩
    · exact .inl (hshared fun action heq => hrow ⟨action, heq⟩)

theorem reachable_claims (h : Reachable World.Start (World.step target) w) :
    Claims w.shared := by
  refine invariant (fun s hs => created_claims hs.1) (fun _ _ _ hinv _ hst => ?_) h
  rcases step_shared hst with hsame | ⟨action, hstep⟩
  · exact hsame ▸ hinv
  · exact step_claims hinv hstep

end KAssetTrader.Consumer
