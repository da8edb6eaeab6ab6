import KAssetTrader.LossStreak.Evaluate

/-!
What the evaluation of a loss streak reports. The facts that it counts are those
inside the lookback, in the order of their execution, without the ones that share
an identifier with an earlier fact that counts; the streak is the longest suffix of
qualifying losses. Neither the order nor the repetition of the facts matters, but
for the reason of a rejection.
-/

namespace KAssetTrader.LossStreak

open Streaks

variable {config : ShadowLossStreakConfig} {scope : Scope} {lookback : ℤ}
  {facts others : List ShadowPaperTradeFact} {prepared kept : List PreparedFact}

def SharesId (a b : PreparedFact) : Prop :=
  a.transactionId = b.transactionId ∨ a.tradeId = b.tradeId

instance : DecidableRel SharesId := fun _ _ => inferInstanceAs (Decidable (_ ∨ _))

theorem SharesId.refl (a : PreparedFact) : SharesId a a := .inl rfl

def KeysDistinct (prepared : List PreparedFact) : Prop :=
  ∀ a ∈ prepared, ∀ b ∈ prepared, a.key = b.key → a = b

theorem deduplicateFrom_eq {previousKey : Option (ℤ ×ₗ ℤ)} (hkeys : KeysDistinct prepared)
    (hprevious : previousKey = kept.head?.map (·.key))
    (hhead : ∀ k ∈ kept.head?, ∀ fact ∈ prepared, k.key = fact.key → k = fact) :
    deduplicateFrom (kept.map (·.transactionId)) (kept.map (·.tradeId)) previousKey prepared =
      .ok (keepFirst SharesId kept prepared) := by
  induction prepared generalizing kept previousKey with
  | nil => rfl
  | cons fact rest ih =>
    have hrest : KeysDistinct rest := fun a ha b hb =>
      hkeys a (List.mem_cons_of_mem _ ha) b (List.mem_cons_of_mem _ hb)
    have hseen : (fact.transactionId ∈ kept.map (·.transactionId) ∨
        fact.tradeId ∈ kept.map (·.tradeId)) ↔ ∃ k ∈ kept, SharesId k fact := by
      simp only [List.mem_map, SharesId]
      constructor
      · rintro (⟨k, hk, heq⟩ | ⟨k, hk, heq⟩)
        · exact ⟨k, hk, .inl heq⟩
        · exact ⟨k, hk, .inr heq⟩
      · rintro ⟨k, hk, heq | heq⟩
        · exact .inl ⟨k, hk, heq⟩
        · exact .inr ⟨k, hk, heq⟩
    rw [deduplicateFrom, keepFirst]
    by_cases hshared : ∃ k ∈ kept, SharesId k fact
    · rw [if_pos (hseen.mpr hshared), if_pos hshared]
      exact ih hrest hprevious fun k hk later hlater =>
        hhead k hk later (List.mem_cons_of_mem _ hlater)
    · have hfresh : some fact.key ≠ previousKey := by
        intro hsame
        rw [hprevious, eq_comm, Option.map_eq_some_iff] at hsame
        obtain ⟨k, hk, heq⟩ := hsame
        obtain rfl := hhead k hk fact List.mem_cons_self heq
        exact hshared ⟨k, List.mem_of_mem_head? hk, SharesId.refl k⟩
      rw [if_neg (mt hseen.mp hshared), if_neg hfresh, if_neg hshared]
      have hhead : ∀ k ∈ (fact :: kept).head?, ∀ later ∈ rest, k.key = later.key → k = later := by
        intro k hk later hlater heq
        cases hk
        exact hkeys _ List.mem_cons_self later (List.mem_cons_of_mem _ hlater) heq
      have hlater : deduplicateFrom (fact.transactionId :: kept.map (·.transactionId))
          (fact.tradeId :: kept.map (·.tradeId)) (some fact.key) rest =
            .ok (keepFirst SharesId (fact :: kept) rest) := ih hrest rfl hhead
      rw [hlater]
      rfl

theorem deduplicateFacts_eq (hkeys : KeysDistinct prepared) :
    deduplicateFacts prepared = .ok (keepFirst SharesId [] prepared) := by
  have hnone : ∀ k ∈ ([] : List PreparedFact).head?, ∀ fact ∈ prepared,
      k.key = fact.key → k = fact := fun _ hk => nomatch hk
  exact deduplicateFrom_eq hkeys rfl hnone

theorem keepFirst_congr {others : List PreparedFact} (hmem : ∀ a, a ∈ prepared ↔ a ∈ others)
    (hprepared : prepared.Pairwise fun a b => a.key ≤ b.key)
    (hothers : others.Pairwise fun a b => a.key ≤ b.key) (hkeys : KeysDistinct prepared) :
    keepFirst SharesId [] prepared = keepFirst SharesId [] others := by
  rw [← keepFirst_eraseDups SharesId.refl [] prepared,
    ← keepFirst_eraseDups SharesId.refl [] others,
    eraseDups_eq_of_mem_iff hmem hprepared hothers hkeys]

theorem countStreak_eq (config : ShadowLossStreakConfig) (kept : List PreparedFact) :
    countStreak config kept =
      ((kept.rtakeWhile fun fact => decide (config.Qualifies fact)).length,
        (kept.rtakeWhile fun fact => decide (config.Qualifies fact)).getLast?) := by
  induction kept using List.reverseRecOn with
  | nil => rfl
  | append_singleton front fact ih =>
    have hstep : countStreak config (front ++ [fact]) =
        if config.Qualifies fact then ((countStreak config front).1 + 1, some fact)
        else (0, none) := by
      rw [countStreak, List.foldl_append]
      rfl
    rw [hstep, List.rtakeWhile_concat, ih]
    by_cases hfact : config.Qualifies fact
    · simp [hfact]
    · simp [hfact]

/-- A fact that fails the evaluation closed: a trade of the account that has no
point in time, or cannot be ordered. -/
def Invalid (scope : Scope) (lookback : ℤ) (fact : ShadowPaperTradeFact) : Prop :=
  ∃ failure, prepareFact scope lookback fact = .error failure

def Retains (scope : Scope) (lookback : ℤ) (facts : List ShadowPaperTradeFact)
    (fact : PreparedFact) : Prop :=
  ∃ raw ∈ facts, prepareFact scope lookback raw = .ok (some fact)

theorem mem_of_mapM_prepare {results : List (Option PreparedFact)}
    (h : facts.mapM (prepareFact scope lookback) = .ok results) :
    (∀ result, result ∈ results ↔
      ∃ fact ∈ facts, prepareFact scope lookback fact = .ok result) ∧
      ∀ fact ∈ facts, ¬ Invalid scope lookback fact := by
  induction facts generalizing results with
  | nil =>
    cases h
    simp
  | cons fact rest ih =>
    rw [List.mapM_cons] at h
    obtain ⟨first, hfirst, h⟩ := Checked.bind_ok_iff.mp h
    obtain ⟨later, hlater, h⟩ := Checked.bind_ok_iff.mp h
    cases h
    obtain ⟨hmem, hvalid⟩ := ih hlater
    constructor
    · intro result
      rw [List.mem_cons, hmem]
      constructor
      · rintro (rfl | ⟨other, hother, heq⟩)
        · exact ⟨fact, List.mem_cons_self, hfirst⟩
        · exact ⟨other, List.mem_cons_of_mem _ hother, heq⟩
      · rintro ⟨other, hother, heq⟩
        rcases List.mem_cons.mp hother with rfl | hother
        · exact .inl (Except.ok.inj (heq.symm.trans hfirst))
        · exact .inr ⟨other, hother, heq⟩
    · intro other hother
      rcases List.mem_cons.mp hother with rfl | hother
      · rintro ⟨failure, hfailure⟩
        rw [hfirst] at hfailure
        cases hfailure
      · exact hvalid other hother

theorem prepareFacts_ok (h : prepareFacts scope lookback facts = .ok prepared) :
    (∀ fact, fact ∈ prepared ↔ Retains scope lookback facts fact) ∧
      (prepared.Pairwise fun a b => a.key ≤ b.key) ∧
      ∀ fact ∈ facts, ¬ Invalid scope lookback fact := by
  obtain ⟨results, hresults, h⟩ := Checked.bind_ok_iff.mp h
  cases h
  obtain ⟨hmem, hvalid⟩ := mem_of_mapM_prepare hresults
  refine ⟨?_, List.pairwise_insertionSort _ _, hvalid⟩
  intro fact
  rw [List.mem_insertionSort, List.mem_filterMap]
  constructor
  · rintro ⟨result, hresult, rfl⟩
    exact (hmem _).mp hresult
  · intro hretained
    exact ⟨some fact, (hmem _).mpr hretained, rfl⟩

theorem prepareFacts_error {failure : ShadowLossReason}
    (h : prepareFacts scope lookback facts = .error failure) :
    ∃ fact ∈ facts, Invalid scope lookback fact := by
  by_contra hnone
  have hall : ∃ results, facts.mapM (prepareFact scope lookback) = .ok results := by
    clear h
    induction facts with
    | nil => exact ⟨[], rfl⟩
    | cons fact rest ih =>
      obtain ⟨later, hlater⟩ := ih fun ⟨other, hother, hinvalid⟩ =>
        hnone ⟨other, List.mem_cons_of_mem _ hother, hinvalid⟩
      cases hfact : prepareFact scope lookback fact with
      | error failure => exact absurd ⟨fact, List.mem_cons_self, failure, hfact⟩ hnone
      | ok result =>
        refine ⟨result :: later, ?_⟩
        rw [List.mapM_cons, hfact, hlater]
        rfl
  obtain ⟨results, hresults⟩ := hall
  rw [prepareFacts, hresults] at h
  cases h

theorem prepareFact_key {raw : ShadowPaperTradeFact} {fact : PreparedFact}
    (h : prepareFact scope lookback raw = .ok (some fact)) :
    raw.executedAt = .aware fact.executedAt ∧ raw.id = fact.id := by
  unfold prepareFact at h
  split at h
  · cases h
  · split at h
    · cases h
    next executedAt hexecuted =>
    split at h
    · cases h
    split at h
    · cases h
    split at h
    · cases h
    cases Except.ok.inj h
    exact ⟨hexecuted, rfl⟩

def RetainsDistinct (scope : Scope) (lookback : ℤ) (facts : List ShadowPaperTradeFact) : Prop :=
  ∀ a b, Retains scope lookback facts a → Retains scope lookback facts b → a.key = b.key → a = b

theorem RetainsDistinct.of_keys
    (hkeys : ∀ f ∈ facts, ∀ g ∈ facts, f.executedAt = g.executedAt → f.id = g.id → f = g) :
    RetainsDistinct scope lookback facts := by
  rintro a b ⟨rawA, hrawA, hpreparedA⟩ ⟨rawB, hrawB, hpreparedB⟩ hkey
  obtain ⟨hatA, hidA⟩ := prepareFact_key hpreparedA
  obtain ⟨hatB, hidB⟩ := prepareFact_key hpreparedB
  obtain ⟨hat, hid⟩ := Prod.mk.inj (toLex.injective hkey)
  obtain rfl := hkeys rawA hrawA rawB hrawB (by rw [hatA, hatB, hat]) (by rw [hidA, hidB, hid])
  exact Option.some.inj (Except.ok.inj (hpreparedA.symm.trans hpreparedB))

section Report

variable {request : Request}

/-- An observation reports the streak of the eligible facts: of those kept in the
order of execution, each of which shares no identifier with an earlier one that is
kept, the longest suffix that consists of qualifying losses. -/
def ReportsStreak (config : ShadowLossStreakConfig) (eligible : PreparedFact → Prop)
    (o : ShadowLossLockObservation) : Prop :=
  ∃ kept : List PreparedFact,
    (kept.Pairwise fun a b => a.key < b.key) ∧
    (∀ fact, fact ∈ kept ↔
      eligible fact ∧ ∀ earlier ∈ kept, earlier.key < fact.key → ¬ SharesId earlier fact) ∧
    IsGreatest {n | ∃ suffix, suffix <:+ kept ∧ (∀ fact ∈ suffix, config.Qualifies fact) ∧
      suffix.length = n} o.streakCount

theorem observeScope_reports {eligible : PreparedFact → Prop} {kind : ShadowLockScope}
    {symbol : Option String} (hmem : ∀ fact, fact ∈ prepared ↔ eligible fact)
    (hsorted : prepared.Pairwise fun a b => a.key ≤ b.key) (hkeys : KeysDistinct prepared) :
    ReportsStreak config eligible
      (observeScope config (keepFirst SharesId [] prepared) kind symbol scope) := by
  have hincreasing := eraseDups_increasing hsorted hkeys
  have hkept : keepFirst SharesId [] prepared = keepFirst SharesId [] prepared.eraseDups :=
    (keepFirst_eraseDups SharesId.refl [] prepared).symm
  refine ⟨keepFirst SharesId [] prepared, ?_, ?_, ?_⟩
  · rw [hkept]
    exact hincreasing.sublist keepFirst_sublist
  · intro fact
    rw [hkept, mem_keepFirst (fun a => lt_irrefl a.key) hincreasing fun _ _ hab => hab.asymm]
    simp [List.mem_eraseDups, hmem]
  · have hcount : (observeScope config (keepFirst SharesId [] prepared) kind symbol
        scope).streakCount = ((keepFirst SharesId [] prepared).rtakeWhile
          fun fact => decide (config.Qualifies fact)).length := by
      simp only [observeScope, countStreak_eq]
    rw [hcount]
    have hgreatest := @rtakeWhile_isGreatest _ (fun fact => decide (config.Qualifies fact))
      (keepFirst SharesId [] prepared)
    simpa only [decide_eq_true_eq] using hgreatest

def ShadowLossStreakResult.withReason (r : ShadowLossStreakResult) (reason : ShadowLossReason) :
    ShadowLossStreakResult :=
  { r with
    globalLock := { r.globalLock with reason }
    symbolLock := { r.symbolLock with reason } }

theorem nonValidResult_withReason (config : ShadowLossStreakConfig) (request : Request)
    (status : ShadowLossStatus) (reason other : ShadowLossReason) :
    nonValidResult config request status other =
      (nonValidResult config request status reason).withReason other := rfl

inductive Evaluation (config : ShadowLossStreakConfig) (facts : List ShadowPaperTradeFact)
    (request : Request) : ShadowLossStreakResult → Prop
  | unscoped (hscope : request.scope = none) :
      Evaluation config facts request
        (nonValidResult config request.normalized .failClosed .invalidScope)
  | invalid {scope : Scope} {failure : ShadowLossReason} {fact : ShadowPaperTradeFact}
      (hscope : request.scope = some scope) (hfact : fact ∈ facts)
      (hinvalid : Invalid scope config.lookback fact) :
      Evaluation config facts request (nonValidResult config request.normalized .failClosed failure)
  | empty {scope : Scope} (hscope : request.scope = some scope)
      (hvalid : ∀ fact ∈ facts, ¬ Invalid scope config.lookback fact)
      (hnone : ∀ fact, ¬ Retains scope config.lookback facts fact) :
      Evaluation config facts request
        (nonValidResult config request.normalized .insufficient .insufficient)
  | observed {scope : Scope} {prepared : List PreparedFact} (hscope : request.scope = some scope)
      (hvalid : ∀ fact ∈ facts, ¬ Invalid scope config.lookback fact)
      (hsome : prepared ≠ [])
      (hmem : ∀ fact, fact ∈ prepared ↔ Retains scope config.lookback facts fact)
      (hsorted : prepared.Pairwise fun a b => a.key ≤ b.key) (hkeys : KeysDistinct prepared) :
      Evaluation config facts request
        (validResult config scope (keepFirst SharesId [] prepared)
          (keepFirst SharesId [] (factsOf scope.symbol prepared)))

theorem KeysDistinct.factsOf (h : KeysDistinct prepared) (symbol : String) :
    KeysDistinct (factsOf symbol prepared) :=
  fun a ha b hb => h a (List.mem_filter.mp ha).1 b (List.mem_filter.mp hb).1

theorem evaluate_cases
    (hdistinct : ∀ scope, request.scope = some scope →
      RetainsDistinct scope config.lookback facts) :
    Evaluation config facts request (evaluateShadowLossStreak config facts request) := by
  unfold evaluateShadowLossStreak
  dsimp only
  split
  next hscope => exact .unscoped hscope
  next scope hscope =>
  split
  next failure hfailure =>
    obtain ⟨fact, hfact, hinvalid⟩ := prepareFacts_error hfailure
    exact .invalid hscope hfact hinvalid
  next hprepared =>
    obtain ⟨hmem, -, hvalid⟩ := prepareFacts_ok hprepared
    exact .empty hscope hvalid fun fact hfact => List.not_mem_nil ((hmem fact).mpr hfact)
  next prepared hsome hprepared =>
  obtain ⟨hmem, hsorted, hvalid⟩ := prepareFacts_ok hprepared
  have hkeys : KeysDistinct prepared := fun a ha b hb =>
    hdistinct scope hscope a b ((hmem a).mp ha) ((hmem b).mp hb)
  rw [deduplicateFacts_eq hkeys, deduplicateFacts_eq (hkeys.factsOf scope.symbol)]
  exact .observed hscope hvalid hsome hmem hsorted hkeys

theorem keepFirst_factsOf_congr {others : List PreparedFact}
    (hmem : ∀ a, a ∈ prepared ↔ a ∈ others)
    (hprepared : prepared.Pairwise fun a b => a.key ≤ b.key)
    (hothers : others.Pairwise fun a b => a.key ≤ b.key) (hkeys : KeysDistinct prepared)
    (symbol : String) :
    keepFirst SharesId [] (factsOf symbol prepared) =
      keepFirst SharesId [] (factsOf symbol others) := by
  apply keepFirst_congr _ (hprepared.filter _) (hothers.filter _) (hkeys.factsOf symbol)
  intro fact
  rw [List.mem_filter, List.mem_filter, hmem]

/-- What the evaluation reports of the facts. It fails closed exactly on a request
without a valid scope or on an invalid fact, and then counts nothing; else the
streaks are those of the retained facts, of the market and of the symbol. -/
structure Reports (config : ShadowLossStreakConfig) (facts : List ShadowPaperTradeFact)
    (request : Request) (r : ShadowLossStreakResult) : Prop where
  failClosed : r.status = .failClosed ↔ request.scope = none ∨
    ∃ scope, request.scope = some scope ∧ ∃ fact ∈ facts, Invalid scope config.lookback fact
  rejected : r.status ≠ .valid → r.globalLock.streakCount = 0 ∧ r.symbolLock.streakCount = 0
  insufficient : r.status = .insufficient → ∃ scope, request.scope = some scope ∧
    ∀ fact, ¬ Retains scope config.lookback facts fact
  valid : r.status = .valid → ∃ scope, request.scope = some scope ∧
    ReportsStreak config (Retains scope config.lookback facts) r.globalLock ∧
    ReportsStreak config
      (fun fact => Retains scope config.lookback facts fact ∧ fact.symbol = scope.symbol)
      r.symbolLock

theorem Evaluation.reports {r : ShadowLossStreakResult} (h : Evaluation config facts request r) :
    Reports config facts request r := by
  cases h with
  | unscoped hscope =>
    refine ⟨?_, fun _ => ⟨rfl, rfl⟩, (nomatch ·), (nomatch ·)⟩
    exact iff_of_true rfl (.inl hscope)
  | invalid hscope hfact hinvalid =>
    refine ⟨?_, fun _ => ⟨rfl, rfl⟩, (nomatch ·), (nomatch ·)⟩
    exact iff_of_true rfl (.inr ⟨_, hscope, _, hfact, hinvalid⟩)
  | empty hscope hvalid hnone =>
    refine ⟨?_, fun _ => ⟨rfl, rfl⟩, fun _ => ⟨_, hscope, hnone⟩, (nomatch ·)⟩
    constructor
    · intro h
      cases h
    · rintro (hunscoped | ⟨other, hother, fact, hfact, hinvalid⟩)
      · rw [hscope] at hunscoped
        cases hunscoped
      · cases hscope.symm.trans hother
        exact absurd hinvalid (hvalid fact hfact)
  | observed hscope hvalid hsome hmem hsorted hkeys =>
    refine ⟨?_, fun h => absurd rfl h, (nomatch ·), fun _ => ⟨_, hscope, ?_, ?_⟩⟩
    · constructor
      · intro h
        cases h
      · rintro (hunscoped | ⟨other, hother, fact, hfact, hinvalid⟩)
        · rw [hscope] at hunscoped
          cases hunscoped
        · cases hscope.symm.trans hother
          exact absurd hinvalid (hvalid fact hfact)
    · exact observeScope_reports hmem hsorted hkeys
    · refine observeScope_reports ?_ (hsorted.filter _) (hkeys.factsOf _)
      intro fact
      rw [factsOf, List.mem_filter, hmem, decide_eq_true_eq]

theorem Retains.congr (hmem : ∀ fact, fact ∈ others ↔ fact ∈ facts) (fact : PreparedFact) :
    Retains scope lookback others fact ↔ Retains scope lookback facts fact := by
  constructor
  · rintro ⟨raw, hraw, hprepared⟩
    exact ⟨raw, (hmem raw).mp hraw, hprepared⟩
  · rintro ⟨raw, hraw, hprepared⟩
    exact ⟨raw, (hmem raw).mpr hraw, hprepared⟩

theorem Evaluation.congr {r r' : ShadowLossStreakResult}
    (hmem : ∀ fact, fact ∈ others ↔ fact ∈ facts) (h : Evaluation config facts request r)
    (h' : Evaluation config others request r') :
    r' = r ∨ r.status = .failClosed ∧ ∃ reason, r' = r.withReason reason := by
  cases h with
  | unscoped hscope =>
    cases h' with
    | unscoped => exact .inl rfl
    | invalid hother | empty hother | observed hother =>
      rw [hscope] at hother
      cases hother
  | invalid hscope hfact hinvalid =>
    cases h' with
    | unscoped hother =>
      rw [hscope] at hother
      cases hother
    | invalid => exact .inr ⟨rfl, _, nonValidResult_withReason ..⟩
    | empty hother hvalid | observed hother hvalid =>
      cases hscope.symm.trans hother
      exact absurd hinvalid (hvalid _ ((hmem _).mpr hfact))
  | empty hscope hvalid hnone =>
    cases h' with
    | unscoped hother =>
      rw [hscope] at hother
      cases hother
    | invalid hother hfact hinvalid =>
      cases hscope.symm.trans hother
      exact absurd hinvalid (hvalid _ ((hmem _).mp hfact))
    | empty => exact .inl rfl
    | observed hother _ hsome hprepared =>
      cases hscope.symm.trans hother
      obtain ⟨fact, hfact⟩ := List.exists_mem_of_ne_nil _ hsome
      exact absurd ((Retains.congr hmem fact).mp ((hprepared fact).mp hfact)) (hnone fact)
  | observed hscope hvalid hsome hprepared hsorted hkeys =>
    cases h' with
    | unscoped hother =>
      rw [hscope] at hother
      cases hother
    | invalid hother hfact hinvalid =>
      cases hscope.symm.trans hother
      exact absurd hinvalid (hvalid _ ((hmem _).mp hfact))
    | empty hother _ hnone =>
      cases hscope.symm.trans hother
      obtain ⟨fact, hfact⟩ := List.exists_mem_of_ne_nil _ hsome
      exact absurd ((Retains.congr hmem fact).mpr ((hprepared fact).mp hfact)) (hnone fact)
    | observed hother _ _ hprepared' hsorted' =>
      cases hscope.symm.trans hother
      have hsame : ∀ fact, fact ∈ _ ↔ fact ∈ _ := fun fact =>
        (hprepared fact).trans ((Retains.congr hmem fact).symm.trans (hprepared' fact).symm)
      have hglobal := keepFirst_congr hsame hsorted hsorted' hkeys
      have hsymbol := keepFirst_factsOf_congr hsame hsorted hsorted' hkeys
      left
      rw [hglobal, hsymbol]

/-- Facts of which those of one moment and one number are equal: the evaluation
reports the longest suffix of qualifying losses, or fails closed on an invalid
fact, and the order and the repetition of the facts change nothing but the reason
of a failure. -/
theorem loss_streak_reported (config : ShadowLossStreakConfig) (request : Request)
    (facts : List ShadowPaperTradeFact)
    (hkeys : ∀ f ∈ facts, ∀ g ∈ facts, f.executedAt = g.executedAt → f.id = g.id → f = g) :
    Reports config facts request (evaluateShadowLossStreak config facts request) ∧
      ∀ others : List ShadowPaperTradeFact, (∀ fact, fact ∈ others ↔ fact ∈ facts) →
        evaluateShadowLossStreak config others request =
            evaluateShadowLossStreak config facts request ∨
          (evaluateShadowLossStreak config facts request).status = .failClosed ∧
            ∃ reason, evaluateShadowLossStreak config others request =
              (evaluateShadowLossStreak config facts request).withReason reason := by
  have hevaluation : Evaluation config facts request _ :=
    evaluate_cases fun _ _ => .of_keys hkeys
  refine ⟨hevaluation.reports, ?_⟩
  intro others hmem
  have hothers : Evaluation config others request _ :=
    evaluate_cases fun _ _ => .of_keys fun f hf g hg =>
      hkeys f ((hmem f).mp hf) g ((hmem g).mp hg)
  exact hevaluation.congr hmem hothers

end Report

/-- Three losses lock the market for an hour, and are looked for in an hour and a
half. -/
def threeLosses : ShadowLossStreakConfig where
  stopLossReasons := ["STOP"]
  lossLimit := 3
  lookback := 90 * 60
  lockDuration := 60 * 60
  reasons_nonempty := by decide
  limit_pos := by decide
  lookback_pos := by decide
  duration_pos := by decide

def sellAt (id : ℤ) (transactionId : String) (realizedPnl : Decimal) (executedAt : Datetime) :
    ShadowPaperTradeFact where
  id
  transactionId
  tradeId := toString id
  ownerUserId := 7
  accountKey := "paper:1"
  market := "KRX"
  symbol := "005930"
  side := "SELL"
  lifecycleStatus := "CLOSED"
  realizedPnl := some realizedPnl
  exitReason := some "STOP"
  executedAt

def requestAt (evaluatedAt : Instant) : Request :=
  ⟨7, "paper:1", "KRX", "005930", .aware evaluatedAt⟩

/-- Two losses against a limit of three. -/
theorem loss_streak_reported_pair :
    Reports threeLosses [sellAt 1 "a" (-1) (.aware 10), sellAt 2 "b" (-1) (.aware 20)]
      (requestAt 30) (evaluateShadowLossStreak threeLosses
        [sellAt 1 "a" (-1) (.aware 10), sellAt 2 "b" (-1) (.aware 20)] (requestAt 30)) :=
  (loss_streak_reported threeLosses (requestAt 30) _ (by decide +kernel)).1

/-- A loss that cannot be ordered and one that has no zone fail the evaluation
closed: nothing is counted of the loss beside them, and the reason is the one that
comes first. -/
theorem invalid_facts_count_nothing :
    ((evaluateShadowLossStreak threeLosses [sellAt 1 "a" (-1) (.aware 10),
        sellAt 0 "b" (-1) (.aware 20), sellAt 3 "c" (-1) (.naive 25)]
        (requestAt 30)).globalLock.streakCount = 0 ∧
      (evaluateShadowLossStreak threeLosses [sellAt 1 "a" (-1) (.aware 10)]
        (requestAt 30)).globalLock.streakCount = 1) ∧
    (evaluateShadowLossStreak threeLosses [sellAt 1 "a" (-1) (.aware 10),
        sellAt 0 "b" (-1) (.aware 20), sellAt 3 "c" (-1) (.naive 25)]
        (requestAt 30)).globalLock.reason = .orderingCollision ∧
    (evaluateShadowLossStreak threeLosses [sellAt 1 "a" (-1) (.aware 10),
        sellAt 3 "c" (-1) (.naive 25), sellAt 0 "b" (-1) (.aware 20)]
        (requestAt 30)).globalLock.reason = .invalidTimestamp := by
  decide +kernel

end KAssetTrader.LossStreak
