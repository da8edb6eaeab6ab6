import KAssetTrader.LossStreak.Reported

/-!
How long a lock of a loss streak lasts while no trade closes. The lock of a symbol
lasts until the session closes. The lock of the market is computed anew from the
trades inside the lookback: it lasts until its expiry as long as the lookback still
holds as many of the trades as the limit asks for.
-/

namespace KAssetTrader.LossStreak

open Checked

open Unicode (strip)
open Streaks

variable {config : ShadowLossStreakConfig} {scope : Scope} {lookback now : ℤ}
  {facts : List ShadowPaperTradeFact} {prepared kept : List PreparedFact}

def Coherent (facts : List ShadowPaperTradeFact) : Prop :=
  ∀ f ∈ facts, ∀ g ∈ facts, strip f.transactionId = strip g.transactionId ∨
    strip f.tradeId = strip g.tradeId → f = g

instance (facts : List ShadowPaperTradeFact) : Decidable (Coherent facts) :=
  inferInstanceAs (Decidable (∀ f ∈ facts, ∀ g ∈ facts, _ → f = g))

def NoneAfter (moment : Instant) (facts : List ShadowPaperTradeFact) : Prop :=
  ∀ fact ∈ facts, ∀ executedAt, fact.executedAt = .aware executedAt → executedAt ≤ moment

def IdsDistinct (prepared : List PreparedFact) : Prop :=
  ∀ a ∈ prepared, ∀ b ∈ prepared, SharesId a b → a = b

theorem keysDistinct_of_deduplicateFrom {later : List PreparedFact}
    (hids : IdsDistinct (kept.reverse ++ prepared))
    (hsorted : (kept.reverse ++ prepared).Pairwise fun a b => a.key ≤ b.key)
    (hkept : KeysDistinct kept)
    (h : deduplicateFrom (kept.map (·.transactionId)) (kept.map (·.tradeId))
      (kept.head?.map (·.key)) prepared = .ok later) :
    KeysDistinct (kept.reverse ++ prepared) := by
  induction prepared generalizing kept later with
  | nil => simpa [KeysDistinct] using hkept
  | cons fact rest ih =>
    have hordered := List.pairwise_append.mp hsorted
    have hbefore : ∀ k ∈ kept, k.key ≤ fact.key := fun k hk =>
      hordered.2.2 k (List.mem_reverse.mpr hk) fact List.mem_cons_self
    rw [deduplicateFrom] at h
    split at h
    next hshared =>
      -- The fact is one of those kept.
      have hfact : fact ∈ kept := by
        have hsame : ∃ k ∈ kept, SharesId k fact := by
          simp only [List.mem_map] at hshared
          rcases hshared with ⟨k, hk, heq⟩ | ⟨k, hk, heq⟩
          · exact ⟨k, hk, .inl heq⟩
          · exact ⟨k, hk, .inr heq⟩
        obtain ⟨k, hk, hid⟩ := hsame
        obtain rfl := hids k (by simp [hk]) fact (by simp) hid
        exact hk
      have hsub : (kept.reverse ++ rest).Sublist (kept.reverse ++ fact :: rest) :=
        (List.sublist_cons_self fact rest).append_left _
      have hrest := ih (fun a ha b hb => hids a (hsub.subset ha) b (hsub.subset hb))
        (hsorted.sublist hsub) hkept h
      have hback : ∀ a ∈ kept.reverse ++ fact :: rest, a ∈ kept.reverse ++ rest := by
        intro a ha
        rcases List.mem_append.mp ha with ha | ha
        · exact List.mem_append_left _ ha
        · rcases List.mem_cons.mp ha with rfl | ha
          · exact List.mem_append_left _ (List.mem_reverse.mpr hfact)
          · exact List.mem_append_right _ ha
      exact fun a ha b hb => hrest a (hback a ha) b (hback b hb)
    split at h
    · cases h
    next hfresh =>
    obtain ⟨tail, htail, -⟩ := bind_ok_iff.mp h
    have hlt : ∀ k ∈ kept, k.key < fact.key := by
      intro k hk
      cases kept with
      | nil => cases hk
      | cons last front =>
        have hlast : last.key < fact.key :=
          lt_of_le_of_ne (hbefore last List.mem_cons_self) fun heq =>
            hfresh (congrArg some heq.symm)
        rcases List.mem_cons.mp hk with rfl | hk
        · exact hlast
        · have hle : k.key ≤ last.key := by
            have hfront := hordered.1
            rw [List.reverse_cons] at hfront
            exact (List.pairwise_append.mp hfront).2.2 k (List.mem_reverse.mpr hk) last
              List.mem_cons_self
          exact hle.trans_lt hlast
    have hsplit : (fact :: kept).reverse ++ rest = kept.reverse ++ fact :: rest := by simp
    rw [← hsplit] at hids hsorted ⊢
    refine ih hids hsorted ?_ htail
    intro a ha b hb heq
    rcases List.mem_cons.mp ha with rfl | hkeptA
    · rcases List.mem_cons.mp hb with rfl | hkeptB
      · rfl
      · exact absurd heq (hlt b hkeptB).ne'
    · rcases List.mem_cons.mp hb with rfl | hkeptB
      · exact absurd heq (hlt a hkeptA).ne
      · exact hkept a hkeptA b hkeptB heq

theorem keysDistinct_of_deduplicate {later : List PreparedFact} (hids : IdsDistinct prepared)
    (hsorted : prepared.Pairwise fun a b => a.key ≤ b.key)
    (h : deduplicateFacts prepared = .ok later) : KeysDistinct prepared := by
  have hnone : KeysDistinct [] := fun a ha => nomatch ha
  exact @keysDistinct_of_deduplicateFrom prepared [] later hids hsorted hnone h

theorem prepareFact_ids {raw : ShadowPaperTradeFact} {fact : PreparedFact}
    (h : prepareFact scope lookback raw = .ok (some fact)) :
    fact.transactionId = strip raw.transactionId ∧ fact.tradeId = strip raw.tradeId ∧
      scope.evaluatedAt - lookback ≤ fact.executedAt ∧ fact.executedAt ≤ scope.evaluatedAt := by
  unfold prepareFact at h
  split at h
  · cases h
  split at h
  · cases h
  split at h
  · cases h
  next hinside =>
  split at h
  · cases h
  split at h
  · cases h
  cases Except.ok.inj h
  obtain ⟨hafter, hbefore⟩ := not_or.mp hinside
  exact ⟨rfl, rfl, not_lt.mp hafter, not_lt.mp hbefore⟩

theorem Coherent.idsDistinct (hcoherent : Coherent facts)
    (hmem : ∀ fact ∈ prepared, Retains scope lookback facts fact) : IdsDistinct prepared := by
  intro a ha b hb hshares
  obtain ⟨rawA, hrawA, hpreparedA⟩ := hmem a ha
  obtain ⟨rawB, hrawB, hpreparedB⟩ := hmem b hb
  obtain ⟨htransactionA, htradeA, -⟩ := prepareFact_ids hpreparedA
  obtain ⟨htransactionB, htradeB, -⟩ := prepareFact_ids hpreparedB
  have hraw : rawA = rawB := by
    apply hcoherent rawA hrawA rawB hrawB
    rcases hshares with heq | heq
    · exact .inl (htransactionA.symm.trans (heq.trans htransactionB))
    · exact .inr (htradeA.symm.trans (heq.trans htradeB))
  subst hraw
  exact Option.some.inj (Except.ok.inj (hpreparedA.symm.trans hpreparedB))

theorem Coherent.retainsDistinct {request : Request} (hcoherent : Coherent facts)
    (hscope : request.scope = some scope)
    (h : (evaluateShadowLossStreak config facts request).status ≠ .failClosed) :
    RetainsDistinct scope config.lookback facts := by
  unfold evaluateShadowLossStreak at h
  rw [hscope] at h
  dsimp only at h
  split at h
  · exact absurd rfl h
  next hprepared =>
    intro a b ha
    exact absurd (((prepareFacts_ok hprepared).1 a).mpr ha) List.not_mem_nil
  next prepared _ hprepared =>
  obtain ⟨hmem, hsorted, -⟩ := prepareFacts_ok hprepared
  have hids := hcoherent.idsDistinct fun fact hfact => (hmem fact).mp hfact
  split at h
  next hglobal _ =>
    have hkeys := keysDistinct_of_deduplicate hids hsorted hglobal
    intro a b ha hb
    exact hkeys a ((hmem a).mpr ha) b ((hmem b).mpr hb)
  · exact absurd rfl h
  · exact absurd rfl h

section Later

variable {later : Instant} {request : Request}

def Request.asOf (request : Request) (moment : Instant) : Request :=
  { request with evaluatedAt := .aware moment }

def Scope.asOf (scope : Scope) (moment : Instant) : Scope := { scope with evaluatedAt := moment }

theorem Request.scope_asOf (later : Instant) (h : (request.asOf now).scope = some scope) :
    scope.evaluatedAt = now ∧ (request.asOf later).scope = some (scope.asOf later) := by
  simp only [Request.scope, Request.asOf] at h ⊢
  obtain ⟨hvalid, hscope⟩ := Option.ite_none_right_eq_some.mp h
  cases hscope
  exact ⟨rfl, if_pos hvalid⟩

theorem prepareFact_later {raw : ShadowPaperTradeFact}
    (hpast : ∀ executedAt, raw.executedAt = .aware executedAt → executedAt ≤ scope.evaluatedAt)
    (hlater : scope.evaluatedAt ≤ later) :
    prepareFact (scope.asOf later) lookback raw = prepareFact scope lookback raw ∨
      prepareFact (scope.asOf later) lookback raw = .ok none ∧
        ∃ executedAt, raw.executedAt = .aware executedAt ∧ executedAt < later - lookback := by
  unfold prepareFact
  by_cases hlook : scope.Looks raw
  · have hlook' : (scope.asOf later).Looks raw := hlook
    rw [if_neg (not_not.mpr hlook'), if_neg (not_not.mpr hlook)]
    cases hat : raw.executedAt with
    | naive localTime => exact .inl rfl
    | aware executedAt =>
      have hbefore := hpast executedAt hat
      by_cases hleft : executedAt < later - lookback
      · exact .inr ⟨if_pos (.inl hleft), executedAt, rfl, hleft⟩
      · have hinside : ¬ (executedAt < scope.evaluatedAt - lookback ∨
            scope.evaluatedAt < executedAt) := by
          rintro (h | h)
          · exact hleft (h.trans_le (Int.sub_le_sub_right hlater lookback))
          · exact absurd hbefore (not_le.mpr h)
        have hinside' : ¬ (executedAt < (scope.asOf later).evaluatedAt - lookback ∨
            (scope.asOf later).evaluatedAt < executedAt) := by
          rintro (h | h)
          · exact hleft h
          · exact absurd (hbefore.trans hlater) (not_le.mpr h)
        left
        dsimp only
        rw [if_neg hinside, if_neg hinside']
  · have hlook' : ¬ (scope.asOf later).Looks raw := hlook
    rw [if_pos hlook', if_pos hlook]
    exact .inl rfl

theorem invalid_later {raw : ShadowPaperTradeFact} (hpast : NoneAfter scope.evaluatedAt facts)
    (hlater : scope.evaluatedAt ≤ later) (hraw : raw ∈ facts)
    (h : Invalid (scope.asOf later) lookback raw) : Invalid scope lookback raw := by
  obtain ⟨failure, hfailure⟩ := h
  rcases prepareFact_later (hpast raw hraw) hlater with heq | ⟨hnone, -⟩
  · exact ⟨failure, heq ▸ hfailure⟩
  · rw [hnone] at hfailure
    cases hfailure

theorem retains_later (hpast : NoneAfter scope.evaluatedAt facts)
    (hlater : scope.evaluatedAt ≤ later) (fact : PreparedFact) :
    Retains (scope.asOf later) lookback facts fact ↔
      Retains scope lookback facts fact ∧ later - lookback ≤ fact.executedAt := by
  constructor
  · rintro ⟨raw, hraw, hprepared⟩
    refine ⟨?_, (prepareFact_ids hprepared).2.2.1⟩
    rcases prepareFact_later (hpast raw hraw) hlater with heq | ⟨hnone, -⟩
    · exact ⟨raw, hraw, heq.symm.trans hprepared⟩
    · rw [hnone] at hprepared
      cases hprepared
  · rintro ⟨⟨raw, hraw, hprepared⟩, hinside⟩
    refine ⟨raw, hraw, ?_⟩
    rcases prepareFact_later (hpast raw hraw) hlater with heq | ⟨-, executedAt, hat, hleft⟩
    · exact heq.trans hprepared
    · rw [(prepareFact_key hprepared).1] at hat
      obtain rfl := Datetime.aware.inj hat
      exact absurd hinside (not_le.mpr hleft)

theorem RetainsDistinct.asOf (h : RetainsDistinct scope lookback facts)
    (hpast : NoneAfter scope.evaluatedAt facts) (hlater : scope.evaluatedAt ≤ later) :
    RetainsDistinct (scope.asOf later) lookback facts := fun a b ha hb =>
  h a b ((retains_later hpast hlater a).mp ha).1 ((retains_later hpast hlater b).mp hb).1

theorem evaluate_later_ok (hcoherent : Coherent facts) (hpast : NoneAfter now facts)
    (hlater : now ≤ later)
    (h : (evaluateShadowLossStreak config facts (request.asOf now)).status ≠ .failClosed) :
    (evaluateShadowLossStreak config facts (request.asOf later)).status ≠ .failClosed := by
  intro hfails
  cases hscope : (request.asOf now).scope with
  | none =>
    apply h
    rw [evaluateShadowLossStreak, hscope]
    rfl
  | some scope =>
    obtain ⟨rfl, hscope'⟩ := Request.scope_asOf later hscope
    have hdistinct := hcoherent.retainsDistinct hscope h
    have hbefore : Reports config facts _ _ := (evaluate_cases fun other hother => by
      cases hscope.symm.trans hother
      exact hdistinct).reports
    have hafter : Reports config facts _ _ := (evaluate_cases fun other hother => by
      cases hscope'.symm.trans hother
      exact hdistinct.asOf hpast hlater).reports
    rcases hafter.failClosed.mp hfails with hnone | ⟨other, hother, fact, hfact, hinvalid⟩
    · rw [hscope'] at hnone
      cases hnone
    · cases hscope'.symm.trans hother
      exact h (hbefore.failClosed.mpr (.inr ⟨scope, hscope, fact, hfact,
        invalid_later hpast hlater hfact hinvalid⟩))

end Later

section Lock

variable {kind : ShadowLockScope} {symbol : Option String}

theorem observeScope_locked :
    (observeScope config kept kind symbol scope).buyLocked = true ↔
      ∃ newest, (countStreak config kept).2 = some newest ∧
        config.lossLimit ≤ (countStreak config kept).1 ∧
        scope.evaluatedAt < newest.executedAt + config.lockDuration := by
  simp only [observeScope, lockOf]
  cases hnewest : (countStreak config kept).2 with
  | none => simp
  | some newest =>
    by_cases hlimit : config.lossLimit ≤ (countStreak config kept).1
    · by_cases hactive : scope.evaluatedAt < newest.executedAt + config.lockDuration
      · simp [hlimit, hactive]
      · simp [hlimit, hactive]
    · simp [hlimit]

theorem observeScope_expiresAt :
    (observeScope config kept kind symbol scope).expiresAt =
      (countStreak config kept).2.map (·.executedAt + config.lockDuration) := by
  simp only [observeScope, lockOf]
  cases hnewest : (countStreak config kept).2 with
  | none => rfl
  | some newest =>
    by_cases hlimit : config.lossLimit ≤ (countStreak config kept).1
    · by_cases hactive : scope.evaluatedAt < newest.executedAt + config.lockDuration
      · simp [hlimit, hactive]
      · simp [hlimit, hactive]
    · simp [hlimit]

/-- The streak of the newest facts is long enough exactly when they are as many as
the limit asks for, and then it ends with the same loss. -/
theorem countStreak_suffix {newer : List PreparedFact} (hsuffix : newer <:+ kept)
    (hlimit : config.lossLimit ≤ (countStreak config kept).1) :
    (config.lossLimit ≤ (countStreak config newer).1 ↔ config.lossLimit ≤ newer.length) ∧
      (config.lossLimit ≤ newer.length →
        (countStreak config newer).2 = (countStreak config kept).2) := by
  rw [countStreak_eq] at hlimit
  rw [countStreak_eq, countStreak_eq, rtakeWhile_of_suffix hsuffix]
  have hpos := config.limit_pos
  dsimp only at hlimit ⊢
  split
  next hshort =>
    refine ⟨iff_of_true hlimit (hlimit.trans hshort), fun _ => rfl⟩
  next hlong =>
    refine ⟨Iff.rfl, ?_⟩
    intro henough
    have hnewer : newer ≠ [] := List.ne_nil_of_length_pos (hpos.trans henough)
    have hstreak := List.rtakeWhile_suffix (fun fact => decide (config.Qualifies fact)) kept
    have hpart := List.suffix_of_suffix_length_le hsuffix hstreak (not_le.mp hlong).le
    obtain ⟨front, hfront⟩ := hpart
    rw [← hfront, List.getLast?_append_of_ne_nil _ hnewer]

end Lock

section Market

variable {later start : Instant} {request : Request} {r result : ShadowLossStreakResult}

theorem keepFirst_inside {newer : List PreparedFact}
    (hids : IdsDistinct prepared) (hkeys : KeysDistinct prepared)
    (hsorted : prepared.Pairwise fun a b => a.key ≤ b.key)
    (hnewer : newer.Pairwise fun a b => a.key ≤ b.key)
    (hmem : ∀ fact, fact ∈ newer ↔ fact ∈ prepared ∧ start ≤ fact.executedAt) :
    keepFirst SharesId [] newer =
        (keepFirst SharesId [] prepared).filter (start ≤ ·.executedAt) ∧
      keepFirst SharesId [] newer <:+ keepFirst SharesId [] prepared := by
  have hold : ∀ {fact}, fact ∈ newer → fact ∈ prepared := fun h => ((hmem _).mp h).1
  have hincreasing := eraseDups_increasing hsorted hkeys
  have hequal : newer.eraseDups = prepared.eraseDups.filter (start ≤ ·.executedAt) := by
    refine eq_of_mem_iff_of_increasing ?_
      (eraseDups_increasing hnewer fun a ha b hb => hkeys a (hold ha) b (hold hb))
      (hincreasing.filter _)
    intro fact
    rw [List.mem_filter, List.mem_eraseDups, List.mem_eraseDups, hmem, decide_eq_true_eq]
  have hsuffix : prepared.eraseDups.filter (start ≤ ·.executedAt) <:+ prepared.eraseDups := by
    apply filter_suffix
    refine hincreasing.imp ?_
    intro a b hab hinside
    have hle : a.executedAt ≤ b.executedAt := by
      rcases Prod.Lex.lt_iff.mp hab with hlt | ⟨heq, -⟩
      · exact hlt.le
      · exact heq.le
    rw [decide_eq_true_eq] at hinside ⊢
    exact hinside.trans hle
  rw [keepFirst_eq_eraseDups SharesId.refl hids,
    keepFirst_eq_eraseDups SharesId.refl fun a ha b hb => hids a (hold ha) b (hold hb), hequal]
  exact ⟨rfl, hsuffix⟩

theorem requireValid_ok (h : requireValid result = .ok r) : result.status ≠ .failClosed := by
  intro hfails
  simp [requireValid, hfails] at h

theorem requireValid_of (h : result.status ≠ .failClosed) : ∃ r, requireValid result = .ok r := by
  unfold requireValid
  cases hstatus : result.status with
  | valid => exact ⟨_, rfl⟩
  | insufficient => exact ⟨_, rfl⟩
  | failClosed => exact absurd hstatus h

theorem requireValid_valid (h : result.status = .valid) : requireValid result = .ok result := by
  simp [requireValid, h]

theorem requireValid_locked (h : requireValid result = .ok r)
    (hlocked : r.globalLock.buyLocked = true ∨ r.symbolLock.buyLocked = true) :
    result.status = .valid ∧ r = result := by
  cases hstatus : result.status with
  | valid =>
    rw [requireValid_valid hstatus] at h
    exact ⟨rfl, (Except.ok.inj h).symm⟩
  | insufficient =>
    simp only [requireValid, hstatus] at h
    cases h
    rcases hlocked with h | h
    · cases h
    · cases h
  | failClosed => exact absurd hstatus (requireValid_ok h)

/-- What becomes of a lock of the market: later, and before it expires, it still
holds with the same expiry when the lookback holds enough of the trades that were
counted, and is gone otherwise. -/
def MarketLasts (limit : ℕ) (lookback : ℤ) (later : Instant)
    (before after : ShadowLossLockObservation) : Prop :=
  ∃ expiresAt, before.expiresAt = some expiresAt ∧ (later < expiresAt →
    (after.buyLocked = true ↔
      limit ≤ before.sourceTimestamps.countP (later - lookback ≤ ·)) ∧
    (after.buyLocked = true → after.expiresAt = some expiresAt))

theorem market_later (hcoherent : Coherent facts) (hpast : NoneAfter now facts)
    (hlater : now ≤ later)
    (hr : requireValid (evaluateShadowLossStreak config facts (request.asOf now)) = .ok r)
    (hlocked : r.globalLock.buyLocked = true) {r' : ShadowLossStreakResult}
    (hr' : requireValid (evaluateShadowLossStreak config facts (request.asOf later)) = .ok r') :
    MarketLasts config.lossLimit config.lookback later r.globalLock r'.globalLock := by
  obtain ⟨hvalid, rfl⟩ := requireValid_locked hr (.inl hlocked)
  cases hscope : (request.asOf now).scope with
  | none =>
    have hfails := requireValid_ok hr
    rw [evaluateShadowLossStreak, hscope] at hfails
    exact absurd rfl hfails
  | some scope =>
  obtain ⟨rfl, hscope'⟩ := Request.scope_asOf later hscope
  have hdistinct := hcoherent.retainsDistinct hscope (requireValid_ok hr)
  have hbefore : Evaluation config facts _ _ := evaluate_cases fun other hother => by
    cases hscope.symm.trans hother
    exact hdistinct
  have hafter : Evaluation config facts _ _ := evaluate_cases fun other hother => by
    cases hscope'.symm.trans hother
    exact hdistinct.asOf hpast hlater
  generalize evaluateShadowLossStreak config facts (request.asOf scope.evaluatedAt) = first
    at hbefore hvalid hlocked
  cases hbefore with
  | unscoped | invalid | empty => cases hvalid
  | @observed other prepared hother _ _ hmem hsorted hkeys =>
  cases hscope.symm.trans hother
  obtain ⟨newest, hnewest, hlimit, -⟩ := observeScope_locked.mp hlocked
  refine ⟨newest.executedAt + config.lockDuration, ?_, ?_⟩
  · exact observeScope_expiresAt.trans (by rw [hnewest]; rfl)
  intro hactive
  have hcount : (validResult config scope (keepFirst SharesId [] prepared)
      (keepFirst SharesId [] (factsOf scope.symbol prepared))).globalLock.sourceTimestamps.countP
        (later - config.lookback ≤ ·) =
      ((keepFirst SharesId [] prepared).filter
        (later - config.lookback ≤ ·.executedAt)).length := by
    simp only [validResult, observeScope]
    rw [List.countP_map, List.countP_eq_length_filter]
    rfl
  rw [hcount]
  generalize evaluateShadowLossStreak config facts (request.asOf later) = second at hafter hr'
  cases hafter with
  | unscoped hnone =>
    rw [hscope'] at hnone
    cases hnone
  | invalid => exact absurd rfl (requireValid_ok hr')
  | empty hother hvalid hnone =>
    cases hother.symm.trans hscope'
    cases hr'
    have hgone : (keepFirst SharesId [] prepared).filter
        (later - config.lookback ≤ ·.executedAt) = [] := by
      apply List.filter_eq_nil_iff.mpr
      intro fact hfact hinside
      have hretained := (hmem fact).mp (keepFirst_sublist.subset hfact)
      exact hnone fact ((retains_later hpast hlater fact).mpr
        ⟨hretained, of_decide_eq_true hinside⟩)
    rw [hgone]
    refine ⟨iff_of_false (by rintro ⟨⟩) ?_, by rintro ⟨⟩⟩
    exact not_le.mpr config.limit_pos
  | @observed other newer hother _ _ hmem' hsorted' _ =>
    cases hother.symm.trans hscope'
    cases hr'
    have hids : IdsDistinct prepared :=
      hcoherent.idsDistinct fun fact hfact => (hmem fact).mp hfact
    obtain ⟨hkept, hsuffix⟩ := keepFirst_inside hids hkeys hsorted hsorted' fun fact => by
      rw [hmem', hmem, retains_later hpast hlater]
    obtain ⟨hcounts, hends⟩ := countStreak_suffix hsuffix hlimit
    rw [← hkept]
    constructor
    · constructor
      · intro hlock
        obtain ⟨-, -, henough, -⟩ := observeScope_locked.mp hlock
        exact hcounts.mp henough
      · intro henough
        exact observeScope_locked.mpr
          ⟨newest, (hends henough).trans hnewest, hcounts.mpr henough, hactive⟩
    · intro hlock
      obtain ⟨-, -, henough, -⟩ := observeScope_locked.mp hlock
      refine observeScope_expiresAt.trans ?_
      rw [hends (hcounts.mp henough), hnewest]
      rfl

end Market

section Session

variable {later : Instant} {request : Request} {session : RegularSession}
  {reasons : List String} {limit : ℕ} {window duration : ℤ}

section

variable (h : ShadowLossStreakConfig.make reasons limit window duration = .ok config)
include h

theorem make_ok :
    config.lossLimit = limit ∧ config.lookback = window ∧ config.lockDuration = duration ∧
      config.stopLossReasons = ((reasons.map normalizeReason).eraseDups).insertionSort (· ≤ ·) := by
  unfold ShadowLossStreakConfig.make at h
  dsimp only at h
  split at h
  · split at h
    · split at h
      · split at h
        · cases h
          exact ⟨rfl, rfl, rfl, rfl⟩
        · cases h
      · cases h
    · cases h
  · cases h

theorem make_of {limit' : ℕ} {window' duration' : ℤ} (hlimit : 1 ≤ limit') (hwindow : 0 < window')
    (hduration : 0 < duration') :
    ∃ config', ShadowLossStreakConfig.make reasons limit' window' duration' = .ok config' := by
  have hreasons := config.reasons_nonempty
  rw [(make_ok h).2.2.2] at hreasons
  refine ⟨⟨_, limit', window', duration', hreasons, hlimit, hwindow, hduration⟩, ?_⟩
  simp only [ShadowLossStreakConfig.make]
  rw [dif_pos hreasons, dif_pos hlimit, dif_pos hwindow, dif_pos hduration]

end

def PreparesAs (scope : Scope) (window : ℤ) (facts : List ShadowPaperTradeFact)
    (config : ShadowLossStreakConfig) (request : Request) (scope' : Scope) : Prop :=
  request.scope = some scope' ∧ scope'.symbol = scope.symbol ∧
    prepareFacts scope' config.lookback facts = prepareFacts scope window facts

theorem evaluate_same (scope : Scope) (window : ℤ) (facts : List ShadowPaperTradeFact) :
    (∃ globalFacts symbolFacts, ∀ config request scope',
      PreparesAs scope window facts config request scope' →
        evaluateShadowLossStreak config facts request =
          validResult config scope' globalFacts symbolFacts) ∨
    ∃ status, status ≠ ShadowLossStatus.valid ∧ ∀ config request scope',
      PreparesAs scope window facts config request scope' →
        (evaluateShadowLossStreak config facts request).status = status := by
  cases hprepared : prepareFacts scope window facts with
  | error failure =>
    refine .inr ⟨.failClosed, (nomatch ·), ?_⟩
    rintro config request scope' ⟨hscope, -, hprepare⟩
    rw [evaluateShadowLossStreak, hscope]
    dsimp only
    rw [hprepare, hprepared]
    rfl
  | ok prepared =>
    cases prepared with
    | nil =>
      refine .inr ⟨.insufficient, (nomatch ·), ?_⟩
      rintro config request scope' ⟨hscope, -, hprepare⟩
      rw [evaluateShadowLossStreak, hscope]
      dsimp only
      rw [hprepare, hprepared]
      rfl
    | cons first rest =>
      cases hglobal : deduplicateFacts (first :: rest) with
      | error failure =>
        refine .inr ⟨.failClosed, (nomatch ·), ?_⟩
        rintro config request scope' ⟨hscope, -, hprepare⟩
        rw [evaluateShadowLossStreak, hscope]
        dsimp only
        rw [hprepare, hprepared]
        dsimp only
        rw [hglobal]
        rfl
      | ok globalFacts =>
        cases hsymbol : deduplicateFacts (factsOf scope.symbol (first :: rest)) with
        | error failure =>
          refine .inr ⟨.failClosed, (nomatch ·), ?_⟩
          rintro config request scope' ⟨hscope, hsame, hprepare⟩
          rw [evaluateShadowLossStreak, hscope]
          dsimp only
          rw [hprepare, hprepared]
          dsimp only
          rw [hglobal, hsame, hsymbol]
          rfl
        | ok symbolFacts =>
          refine .inl ⟨globalFacts, symbolFacts, ?_⟩
          rintro config request scope' ⟨hscope, hsame, hprepare⟩
          rw [evaluateShadowLossStreak, hscope]
          dsimp only
          rw [hprepare, hprepared]
          dsimp only
          rw [hglobal, hsame, hsymbol]

theorem evaluate_valid (h : (evaluateShadowLossStreak config facts request).status = .valid) :
    ∃ scope globalFacts symbolFacts, request.scope = some scope ∧
      ∀ config' request' scope', PreparesAs scope config.lookback facts config' request' scope' →
        evaluateShadowLossStreak config' facts request' =
          validResult config' scope' globalFacts symbolFacts := by
  cases hscope : request.scope with
  | none =>
    rw [evaluateShadowLossStreak, hscope] at h
    cases h
  | some scope =>
    rcases evaluate_same scope config.lookback facts with
      ⟨globalFacts, symbolFacts, hresult⟩ | ⟨status, hinvalid, hstatus⟩
    · exact ⟨scope, globalFacts, symbolFacts, rfl, hresult⟩
    · exact absurd (hstatus config request scope ⟨hscope, rfl, rfl⟩ ▸ h) hinvalid

theorem prepareFacts_session (hpast : NoneAfter scope.evaluatedAt facts)
    (hlater : scope.evaluatedAt ≤ later) (hopen : later < session.closesAt)
    (hinside : ∀ fact ∈ facts, ∀ executedAt, fact.executedAt = .aware executedAt →
      session.opensAt ≤ executedAt) :
    prepareFacts (scope.asOf later) (session.closesAt - session.opensAt) facts =
      prepareFacts scope (session.closesAt - session.opensAt) facts := by
  have hsame : ∀ raw ∈ facts,
      prepareFact (scope.asOf later) (session.closesAt - session.opensAt) raw =
        prepareFact scope (session.closesAt - session.opensAt) raw := by
    intro raw hraw
    rcases prepareFact_later (hpast raw hraw) hlater with heq | ⟨-, executedAt, hat, hleft⟩
    · exact heq
    · have hopened := hinside raw hraw executedAt hat
      exact absurd hleft (not_lt.mpr (by linarith))
  have hall : facts.mapM (prepareFact (scope.asOf later) (session.closesAt - session.opensAt)) =
      facts.mapM (prepareFact scope (session.closesAt - session.opensAt)) := by
    clear hpast hinside
    induction facts with
    | nil => rfl
    | cons fact rest ih =>
      rw [List.mapM_cons, List.mapM_cons, hsame fact List.mem_cons_self,
        ih fun raw hraw => hsame raw (List.mem_cons_of_mem _ hraw)]
  rw [prepareFacts, prepareFacts, hall]

theorem sessionFacts_mem {inside : List ShadowPaperTradeFact}
    (h : sessionFacts session now facts = .ok inside) :
    inside.Sublist facts ∧ (∀ fact ∈ facts, ∃ executedAt, fact.executedAt = .aware executedAt) ∧
      ∀ fact ∈ inside, ∀ executedAt, fact.executedAt = .aware executedAt →
        session.opensAt ≤ executedAt := by
  induction facts generalizing inside with
  | nil =>
    cases h
    simp
  | cons fact rest ih =>
    rw [sessionFacts] at h
    split at h
    · cases h
    next executedAt hat =>
    obtain ⟨tail, htail, h⟩ := bind_ok_iff.mp h
    cases h
    obtain ⟨hsub, haware, hopened⟩ := ih htail
    refine ⟨?_, List.forall_mem_cons.mpr ⟨⟨executedAt, hat⟩, haware⟩, ?_⟩
    · split
      · exact hsub.cons_cons fact
      · exact hsub.cons fact
    · split
      next hinside =>
        refine List.forall_mem_cons.mpr ⟨?_, hopened⟩
        intro other hother
        obtain rfl := Datetime.aware.inj (hat.symm.trans hother)
        exact hinside.1
      · exact hopened

theorem sessionFacts_later (hpast : NoneAfter now facts) (hlater : now ≤ later)
    (haware : ∀ fact ∈ facts, ∃ executedAt, fact.executedAt = .aware executedAt) :
    sessionFacts session later facts = sessionFacts session now facts ∧
      (now < session.opensAt → sessionFacts session later facts = .ok []) := by
  induction facts with
  | nil => exact ⟨rfl, fun _ => rfl⟩
  | cons fact rest ih =>
    obtain ⟨⟨executedAt, hat⟩, hrest⟩ := List.forall_mem_cons.mp haware
    have hbefore : executedAt ≤ now := hpast fact List.mem_cons_self executedAt hat
    obtain ⟨hsame, hnone⟩ := ih (fun raw hraw => hpast raw (List.mem_cons_of_mem _ hraw)) hrest
    rw [sessionFacts, sessionFacts, hat]
    dsimp only
    constructor
    · rw [hsame]
      simp only [hbefore, hbefore.trans hlater]
    · intro hopens
      rw [hnone hopens]
      have hout : ¬ (session.opensAt ≤ executedAt ∧ executedAt ≤ later) := fun h =>
        absurd h.1 (not_le.mpr (hbefore.trans_lt hopens))
      simp only [if_neg hout]
      rfl

theorem NoneAfter.sublist {moment : Instant} {fewer : List ShadowPaperTradeFact}
    (h : NoneAfter moment facts) (hsub : fewer.Sublist facts) : NoneAfter moment fewer :=
  fun fact hfact => h fact (hsub.subset hfact)

theorem Coherent.sublist {fewer : List ShadowPaperTradeFact} (h : Coherent facts)
    (hsub : fewer.Sublist facts) : Coherent fewer :=
  fun f hf g hg => h f (hsub.subset hf) g (hsub.subset hg)

theorem evaluateSession_ok {request : Request}
    (hmake : ShadowLossStreakConfig.make stopLossReasons limit
      (session.closesAt - session.opensAt) (session.closesAt - session.opensAt) = .ok config)
    (h : (evaluateShadowLossStreak config facts request).status ≠ .failClosed) :
    ∃ lock, evaluateSession limit session facts request = .ok lock := by
  obtain ⟨preliminary, hpreliminary⟩ := requireValid_of h
  simp only [evaluateSession, hmake, ok_bind, hpreliminary]
  split
  · exact ⟨_, rfl⟩
  next newestLossAt hnewest =>
  split
  · exact ⟨_, rfl⟩
  next hcloses =>
  obtain ⟨hlimit, hwindow, hduration, -⟩ := make_ok hmake
  obtain ⟨symbolConfig, hsymbol⟩ := make_of hmake (hlimit ▸ config.limit_pos)
    (hduration ▸ config.duration_pos) (sub_pos.mpr (not_le.mp hcloses))
  have hstatus : (evaluateShadowLossStreak symbolConfig facts request).status ≠ .failClosed := by
    cases hscope : request.scope with
    | none =>
      rw [evaluateShadowLossStreak, hscope] at h
      exact absurd rfl h
    | some scope =>
      have hprepares : PreparesAs scope config.lookback facts symbolConfig request scope :=
        ⟨hscope, rfl, by rw [(make_ok hsymbol).2.1, hwindow]⟩
      rcases evaluate_same scope config.lookback facts with ⟨_, _, hsame⟩ | ⟨_, -, hsame⟩
      · rw [hsame _ _ _ hprepares]
        exact (nomatch ·)
      · rw [hsame _ _ _ hprepares, ← hsame config request scope ⟨hscope, rfl, rfl⟩]
        exact h
  obtain ⟨symbolResult, hresult⟩ := requireValid_of hstatus
  rw [hsymbol, ok_bind, hresult]
  exact ⟨_, rfl⟩

theorem countStreak_congr {config' : ShadowLossStreakConfig}
    (h : config'.stopLossReasons = config.stopLossReasons) :
    countStreak config' kept = countStreak config kept := by
  have hsame : ∀ fact, config'.Qualifies fact ↔ config.Qualifies fact := by
    intro fact
    rw [ShadowLossStreakConfig.Qualifies, ShadowLossStreakConfig.Qualifies, h]
  rw [countStreak_eq, countStreak_eq]
  simp only [hsame]

theorem evaluateSession_locked {lock : ShadowLossLockObservation}
    (h : evaluateSession limit session facts request = .ok lock) (hlocked : lock.buyLocked = true) :
    ∃ preliminaryConfig preliminary newestLossAt symbolConfig result,
      ShadowLossStreakConfig.make stopLossReasons limit (session.closesAt - session.opensAt)
          (session.closesAt - session.opensAt) = .ok preliminaryConfig ∧
        requireValid (evaluateShadowLossStreak preliminaryConfig facts request) =
          .ok preliminary ∧
        preliminary.symbolLock.newestLossAt = some newestLossAt ∧
        newestLossAt < session.closesAt ∧
        ShadowLossStreakConfig.make stopLossReasons limit (session.closesAt - session.opensAt)
          (session.closesAt - newestLossAt) = .ok symbolConfig ∧
        requireValid (evaluateShadowLossStreak symbolConfig facts request) = .ok result ∧
        lock = result.symbolLock := by
  obtain ⟨preliminaryConfig, hmake, h⟩ := bind_ok_iff.mp h
  obtain ⟨preliminary, hpreliminary, h⟩ := bind_ok_iff.mp h
  split at h
  next hnone =>
    cases h
    obtain ⟨hvalid, rfl⟩ := requireValid_locked hpreliminary (.inr hlocked)
    obtain ⟨scope, globalFacts, symbolFacts, hscope, hresult⟩ := evaluate_valid hvalid
    rw [hresult _ _ _ ⟨hscope, rfl, rfl⟩] at hlocked hnone
    obtain ⟨newest, hnewest, -⟩ := observeScope_locked.mp hlocked
    simp only [validResult, observeScope, hnewest] at hnone
    cases hnone
  next newestLossAt hnewest =>
  split at h
  · cases h
    cases hlocked
  next hcloses =>
  obtain ⟨symbolConfig, hsymbol, h⟩ := bind_ok_iff.mp h
  obtain ⟨result, hresult, h⟩ := bind_ok_iff.mp h
  cases h
  exact ⟨preliminaryConfig, preliminary, newestLossAt, symbolConfig, result, hmake,
    hpreliminary, hnewest, not_le.mp hcloses, hsymbol, hresult, rfl⟩

theorem session_later (hpast : NoneAfter now facts)
    (hlater : now ≤ later)
    (hopened : ∀ fact ∈ facts, ∀ executedAt, fact.executedAt = .aware executedAt →
      session.opensAt ≤ executedAt)
    {lock : ShadowLossLockObservation}
    (h : evaluateSession limit session facts (request.asOf now) = .ok lock)
    (hlocked : lock.buyLocked = true) :
    lock.expiresAt = some session.closesAt ∧ ∀ lock',
      evaluateSession limit session facts (request.asOf later) = .ok lock' →
        later < session.closesAt →
          lock'.buyLocked = true ∧ lock'.expiresAt = some session.closesAt := by
  obtain ⟨preliminaryConfig, preliminary, newestLossAt, symbolConfig, result, hmake,
    hpreliminary, hnewest, hcloses, hsymbol, hresult, rfl⟩ := evaluateSession_locked h hlocked
  obtain ⟨hvalid, rfl⟩ := requireValid_locked hresult (.inr hlocked)
  obtain ⟨scope, globalFacts, symbolFacts, hscope, hsame⟩ := evaluate_valid hvalid
  obtain ⟨rfl, hscope'⟩ := Request.scope_asOf later hscope
  obtain ⟨-, hwindowP, -, hreasonsP⟩ := make_ok hmake
  obtain ⟨-, hwindowS, hdurationS, hreasonsS⟩ := make_ok hsymbol
  have hreasons : preliminaryConfig.stopLossReasons = symbolConfig.stopLossReasons :=
    hreasonsP.trans hreasonsS.symm
  rw [hsame _ _ _ ⟨hscope, rfl, rfl⟩] at hlocked ⊢
  obtain ⟨newest, hstreak, henough, -⟩ := observeScope_locked.mp hlocked
  -- The preliminary evaluation sees the same streak.
  have hat : newestLossAt = newest.executedAt := by
    rw [hsame _ _ _ ⟨hscope, rfl, by rw [hwindowP, hwindowS]⟩] at hpreliminary
    cases hpreliminary
    simp only [validResult, observeScope, countStreak_congr hreasons, hstreak] at hnewest
    exact (Option.some.inj hnewest).symm
  subst hat
  have hexpires : newest.executedAt + symbolConfig.lockDuration = session.closesAt := by
    rw [hdurationS]
    ring
  constructor
  · exact observeScope_expiresAt.trans (by rw [hstreak, ← hexpires]; rfl)
  intro lock' h' hopen
  have hprepare := prepareFacts_session hpast hlater hopen hopened
  simp only [evaluateSession, hmake, ok_bind] at h'
  rw [hsame _ _ _ ⟨hscope', rfl, by rw [hwindowP, hwindowS, hprepare]⟩,
    requireValid_valid rfl, ok_bind] at h'
  have hnewest' : (validResult preliminaryConfig (scope.asOf later) globalFacts
      symbolFacts).symbolLock.newestLossAt = some newest.executedAt := by
    simp only [validResult, observeScope, countStreak_congr hreasons, hstreak]
    rfl
  rw [hnewest'] at h'
  dsimp only at h'
  rw [if_neg (not_le.mpr hcloses), hsymbol, ok_bind,
    hsame _ _ _ ⟨hscope', rfl, by rw [hwindowS, hprepare]⟩, requireValid_valid rfl,
    ok_bind] at h'
  cases h'
  constructor
  · exact observeScope_locked.mpr ⟨newest, hstreak, henough, hexpires ▸ hopen⟩
  · exact observeScope_expiresAt.trans (by rw [hstreak, ← hexpires]; rfl)

end Session

section Gate

variable {config : LossStreakConfig} {ownerUserId : ℤ} {accountKey market symbol : String}
  {now later : Instant} {session session' : RegularSession} {r : ShadowLossStreakResult}

theorem evaluateSession_later {config : LossStreakConfig} {request : Request}
    {window duration : ℤ} {globalConfig : ShadowLossStreakConfig}
    {inside : List ShadowPaperTradeFact} {lock : ShadowLossLockObservation}
    (hcoherent : Coherent facts) (hpast : NoneAfter now facts) (hlater : now ≤ later)
    (hsession : session' = session ∨
      now < session'.opensAt ∧ session'.opensAt < session'.closesAt)
    (hmake : ShadowLossStreakConfig.make stopLossReasons config.globalLossLimit window duration =
      .ok globalConfig)
    (hglobal : (evaluateShadowLossStreak globalConfig facts (request.asOf now)).status ≠
      .failClosed)
    (hinside : sessionFacts session now facts = .ok inside)
    (h : evaluateSession config.symbolLossLimit session inside (request.asOf now) = .ok lock) :
    ∃ inside' lock', sessionFacts session' later facts = .ok inside' ∧
      evaluateSession config.symbolLossLimit session' inside' (request.asOf later) = .ok lock' := by
  obtain ⟨hsub, haware, -⟩ := sessionFacts_mem hinside
  rcases hsession with rfl | ⟨hopens, hcloses⟩
  · obtain ⟨preliminaryConfig, hpreliminary, h⟩ := bind_ok_iff.mp h
    obtain ⟨preliminary, hvalid, -⟩ := bind_ok_iff.mp h
    have hstill := evaluate_later_ok (hcoherent.sublist hsub) (hpast.sublist hsub) hlater
      (requireValid_ok hvalid)
    obtain ⟨lock', hlock'⟩ := evaluateSession_ok hpreliminary hstill
    exact ⟨inside, lock', (sessionFacts_later hpast hlater haware).1.trans hinside, hlock'⟩
  · obtain ⟨preliminaryConfig, hpreliminary⟩ := make_of hmake config.limits_pos.2
      (sub_pos.mpr hcloses) (sub_pos.mpr hcloses)
    have hempty : (evaluateShadowLossStreak preliminaryConfig [] (request.asOf later)).status ≠
        .failClosed := by
      cases hscope : (request.asOf now).scope with
      | none =>
        rw [evaluateShadowLossStreak, hscope] at hglobal
        exact absurd rfl hglobal
      | some scope =>
        rw [evaluateShadowLossStreak, (Request.scope_asOf later hscope).2]
        exact (nomatch ·)
    obtain ⟨lock', hlock'⟩ := evaluateSession_ok hpreliminary hempty
    exact ⟨[], lock', (sessionFacts_later hpast hlater haware).2 hopens, hlock'⟩

/-- With coherent facts and none that is new, an evaluation that succeeds succeeds
later, in the same session or in one that opens later. A lock of the symbol lasts
until its session closes. A lock of the market lasts until it expires as long as the
lookback holds enough of the trades that were counted. -/
theorem loss_locks_last (config : LossStreakConfig) (hcoherent : Coherent facts)
    (hpast : NoneAfter now facts) (hlater : now ≤ later)
    (hsession : session' = session ∨
      now < session'.opensAt ∧ session'.opensAt < session'.closesAt)
    (hr : evaluateActiveStreaks facts ownerUserId accountKey market symbol now session config =
      .ok r) :
    ∃ r', evaluateActiveStreaks facts ownerUserId accountKey market symbol later session' config =
        .ok r' ∧
      (r.symbolLock.buyLocked = true → r.symbolLock.expiresAt = some session.closesAt ∧
        (session' = session → later < session.closesAt →
          r'.symbolLock.buyLocked = true ∧ r'.symbolLock.expiresAt = some session.closesAt)) ∧
      (r.globalLock.buyLocked = true →
        MarketLasts config.globalLossLimit config.globalLookback later r.globalLock
          r'.globalLock) := by
  obtain ⟨globalConfig, hglobalConfig, hr⟩ := bind_ok_iff.mp hr
  obtain ⟨globalResult, hglobal, hr⟩ := bind_ok_iff.mp hr
  obtain ⟨inside, hinside, hr⟩ := bind_ok_iff.mp hr
  obtain ⟨symbolLock, hsymbol, hr⟩ := bind_ok_iff.mp hr
  cases hr
  let request : Request := ⟨ownerUserId, accountKey, market, symbol, .aware now⟩
  have hstill := @evaluate_later_ok globalConfig now facts later request hcoherent hpast hlater
    (requireValid_ok hglobal)
  obtain ⟨globalResult', hglobal'⟩ := requireValid_of hstill
  obtain ⟨inside', symbolLock', hinside', hsymbol'⟩ := @evaluateSession_later facts now later
    session session' config request _ _ _ _ _ hcoherent hpast hlater hsession hglobalConfig
    (requireValid_ok hglobal) hinside hsymbol
  refine ⟨{ globalResult' with symbolLock := symbolLock' }, ?_, ?_, ?_⟩
  · change (do
      let globalConfig ← ShadowLossStreakConfig.make stopLossReasons config.globalLossLimit
        config.globalLookback config.globalLockDuration
      let globalResult ← requireValid
        (evaluateShadowLossStreak globalConfig facts (request.asOf later))
      let inside ← sessionFacts session' later facts
      let symbolLock ← evaluateSession config.symbolLossLimit session' inside (request.asOf later)
      return { globalResult with symbolLock } : Except String ShadowLossStreakResult) = _
    rw [hglobalConfig, ok_bind, hglobal', ok_bind, hinside', ok_bind,
      hsymbol']
    rfl
  · intro hlocked
    obtain ⟨hsub, haware, hopened⟩ := sessionFacts_mem hinside
    obtain ⟨hexpires, hlasts⟩ := @session_later now inside later request session _
      (hpast.sublist hsub) hlater hopened _ hsymbol hlocked
    refine ⟨hexpires, ?_⟩
    rintro rfl hopen
    obtain rfl := Except.ok.inj
      (((sessionFacts_later hpast hlater haware).1.trans hinside).symm.trans hinside')
    exact hlasts symbolLock' hsymbol' hopen
  · intro hlocked
    obtain ⟨hlimit, hlookback, -⟩ := make_ok hglobalConfig
    rw [← hlimit, ← hlookback]
    have hmarket := @market_later globalConfig now facts later request _ hcoherent hpast hlater
      hglobal hlocked _ hglobal'
    exact hmarket

end Gate

def minute (count : ℤ) : Instant := count * 60 * 1000000

def dayOfTrading : RegularSession := ⟨minute 0, minute 390⟩

def evaluateAt (facts : List ShadowPaperTradeFact) (now : Instant) :
    Except String ShadowLossStreakResult :=
  evaluateActiveStreaks facts 7 "paper:1" "KRX" "005930" now dayOfTrading defaultLossStreakConfig

/-- Three losses, of which the first is the oldest by far. -/
def spacedLosses : List ShadowPaperTradeFact :=
  [sellAt 1 "a" (-1) (.aware (minute 0)), sellAt 2 "b" (-1) (.aware (minute 80)),
    sellAt 3 "c" (-1) (.aware (minute 89))]

/-- Three losses, between which lies a profit of the order of an earlier one. -/
def reusedOrder : List ShadowPaperTradeFact :=
  [sellAt 1 "a" 1 (.aware (minute 0)), sellAt 2 "b" (-1) (.aware (minute 80)),
    sellAt 3 "a" 1 (.aware (minute 85)), sellAt 4 "c" (-1) (.aware (minute 86)),
    sellAt 5 "d" (-1) (.aware (minute 87))]

/-- Three losses half an hour apart, before and after the first of them leaves the window. -/
theorem loss_locks_last_spaced :
    ∃ r r', evaluateAt spacedLosses (minute 89) = .ok r ∧
      evaluateAt spacedLosses (minute 90) = .ok r' ∧
      r.globalLock.buyLocked = true ∧ r.symbolLock.buyLocked = true ∧
      (r.symbolLock.expiresAt = some (minute 390) ∧ r'.symbolLock.buyLocked = true) ∧
      MarketLasts 3 (minute 90) (minute 90) r.globalLock r'.globalLock := by
  obtain ⟨r, hr, hglobal, hsymbol⟩ := exists_ok_of_check (P := fun r =>
    r.globalLock.buyLocked = true ∧ r.symbolLock.buyLocked = true)
    (show ((evaluateAt spacedLosses (minute 89)).toOption.any _) = true by decide +kernel)
  obtain ⟨r', hr', hlasts, hmarket⟩ := loss_locks_last defaultLossStreakConfig
    (show Coherent spacedLosses by decide +kernel)
    (show NoneAfter (minute 89) spacedLosses by
      simp [NoneAfter, spacedLosses, sellAt, minute])
    (show minute 89 ≤ minute 90 by decide) (.inl rfl) hr
  obtain ⟨hexpires, hopen⟩ := hlasts hsymbol
  exact ⟨r, r', hr, hr', hglobal, hsymbol, ⟨hexpires, (hopen rfl (by decide)).1⟩, hmarket hglobal⟩

/-- A lock that would expire a full hour after the newest loss is gone as soon as
the oldest loss leaves the lookback; and when a profit comes back into the count
because an earlier trade of its order has left, a lock is gone although three
losses are inside the lookback. -/
theorem aged_losses_unlock :
    (∃ r r', evaluateAt spacedLosses (minute 89) = .ok r ∧
      evaluateAt spacedLosses (minute 91) = .ok r' ∧ r.globalLock.buyLocked = true ∧
      r.globalLock.expiresAt = some (minute 149) ∧ r'.globalLock.buyLocked = false) ∧
    ∃ r r', evaluateAt reusedOrder (minute 87) = .ok r ∧
      evaluateAt reusedOrder (minute 91) = .ok r' ∧ r.globalLock.buyLocked = true ∧
      r.globalLock.expiresAt = some (minute 147) ∧
      3 ≤ r.globalLock.sourceTimestamps.countP (minute 91 - minute 90 ≤ ·) ∧
      r'.globalLock.buyLocked = false := by
  constructor
  · exact exists_ok_of_check₂ (by decide +kernel)
  · exact exists_ok_of_check₂ (by decide +kernel)

end KAssetTrader.LossStreak
