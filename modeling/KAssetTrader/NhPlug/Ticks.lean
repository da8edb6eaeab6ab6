import KAssetTrader.NhPlug.Runner

/-!
What every tick keeps. The plan gives each session a region of its own, the symbols it
carries and those it is to carry, and the regions of two sessions never meet. The work on a
session stays inside its region whatever fails there, so the sessions may be treated one
after the other with a plan that was made before the first.
-/

namespace KAssetTrader.NhPlug

open NhRunner NhSession Transition

/-- A session and its windows agree on a region that holds all its symbols. -/
structure SessionKept (region : String → Prop) (s : NhSession) : Prop where
  nodup : s.slot.subscribed.Nodup
  unconnected : s.slot.ws = none → s.slot.subscribed = []
  within : ∀ symbol ∈ s.slot.subscribed, region symbol
  windows : ∀ symbol, region symbol →
    ((s.tape.windows.get? symbol).isSome = true ↔ symbol ∈ s.slot.subscribed)
  serial : ∀ connection, s.slot.ws = some connection → connection < s.tape.nextSerial

/-- Windows outside a region stay, and serial numbers are not used twice. -/
structure TapeFrame (region : String → Prop) (tape tape' : NhTape) : Prop where
  outside : ∀ symbol, ¬ region symbol → tape'.windows.get? symbol = tape.windows.get? symbol
  serial : tape.nextSerial ≤ tape'.nextSerial

variable {s s' : NhSession} {tape tape' : NhTape} {region : String → Prop}

section Frames

variable {tape'' : NhTape}

theorem TapeFrame.refl (region : String → Prop) (tape : NhTape) :
    TapeFrame region tape tape :=
  ⟨fun _ _ => rfl, le_rfl⟩

theorem TapeFrame.trans (h : TapeFrame region tape tape') (h' : TapeFrame region tape' tape'') :
    TapeFrame region tape tape'' := by
  refine ⟨fun symbol hout => ?_, h.serial.trans h'.serial⟩
  exact (h'.outside symbol hout).trans (h.outside symbol hout)

theorem SessionKept.frame {slot : NhSlot} (h : SessionKept region ⟨slot, tape⟩)
    (hwindows : ∀ symbol, region symbol →
      tape'.windows.get? symbol = tape.windows.get? symbol)
    (hserial : tape.nextSerial ≤ tape'.nextSerial) : SessionKept region ⟨slot, tape'⟩ := by
  refine ⟨h.nodup, h.unconnected, h.within, ?_, ?_⟩
  · intro symbol hregion
    dsimp only
    rw [hwindows symbol hregion]
    exact h.windows symbol hregion
  · intro connection hws
    exact lt_of_lt_of_le (h.serial connection hws) hserial

theorem SessionKept.congr (h : SessionKept region s)
    (hsubscribed : s'.slot.subscribed = s.slot.subscribed) (hws : s'.slot.ws = s.slot.ws)
    (htape : s'.tape = s.tape) : SessionKept region s' := by
  refine ⟨?_, ?_, ?_, ?_, ?_⟩
  · rw [hsubscribed]
    exact h.nodup
  · rw [hsubscribed, hws]
    exact h.unconnected
  · rw [hsubscribed]
    exact h.within
  · rw [hsubscribed, htape]
    exact h.windows
  · rw [hws, htape]
    exact h.serial

theorem get?_foldl_erase {windows : Dict String ℕ} (symbols : List String) (symbol : String) :
    (symbols.foldl Dict.erase windows).get? symbol =
      if symbol ∈ symbols then none else windows.get? symbol := by
  induction symbols generalizing windows with
  | nil => simp
  | cons head rest ih =>
    rw [List.foldl_cons, ih, Dict.get?_erase]
    by_cases hhead : symbol = head
    · simp [hhead]
    · simp [hhead]

end Frames

variable {inputs : SlotInputs}

section Operations

theorem SessionKept.dropConnection (h : SessionKept region s) (now : ℤ) :
    SessionKept region (s.dropConnection now) ∧
      TapeFrame region s.tape (s.dropConnection now).tape := by
  refine ⟨⟨List.nodup_nil, fun _ => rfl, ?_, ?_, ?_⟩, ⟨?_, le_rfl⟩⟩
  · intro symbol hnone
    cases hnone
  · intro symbol hregion
    simp only [NhSession.dropConnection, get?_foldl_erase]
    split
    · simp
    next hunsubscribed =>
      rw [h.windows symbol hregion]
      exact ⟨fun hmem => absurd hmem hunsubscribed, fun hnone => by cases hnone⟩
  · intro connection hnone
    cases hnone
  · intro symbol hout
    simp only [NhSession.dropConnection, get?_foldl_erase]
    rw [if_neg]
    intro hmem
    exact hout (h.within symbol hmem)

variable {symbol : String} {symbols : List String}

theorem SessionKept.unsubscribeOne (h : SessionKept region s) (hregion : region symbol) :
    SessionKept region (s.unsubscribeOne symbol) ∧
      TapeFrame region s.tape (s.unsubscribeOne symbol).tape := by
  refine ⟨⟨h.nodup.erase symbol, ?_, ?_, ?_, h.serial⟩, ⟨?_, le_rfl⟩⟩
  · intro hws
    simp only [NhSession.unsubscribeOne]
    rw [h.unconnected hws]
    rfl
  · intro other hother
    exact h.within other (List.mem_of_mem_erase hother)
  · intro other hother
    simp only [NhSession.unsubscribeOne, Dict.get?_erase, h.nodup.mem_erase_iff]
    split
    next hsame => simp [hsame]
    next hdifferent =>
      rw [h.windows other hother]
      simp [hdifferent]
  · intro other hother
    simp only [NhSession.unsubscribeOne, Dict.get?_erase]
    rw [if_neg]
    rintro rfl
    exact hother hregion

theorem SessionKept.unsubscribe (h : SessionKept region s) (symbols : List String)
    (hregion : ∀ symbol ∈ symbols, region symbol) :
    (SessionKept region (s.unsubscribe symbols) ∧
      TapeFrame region s.tape (s.unsubscribe symbols).tape) ∧
      (s.unsubscribe symbols).slot.ws = s.slot.ws ∧
      ∀ symbol, symbol ∉ symbols →
        (symbol ∈ (s.unsubscribe symbols).slot.subscribed ↔ symbol ∈ s.slot.subscribed) ∧
          (s.unsubscribe symbols).tape.windows.get? symbol = s.tape.windows.get? symbol := by
  induction symbols generalizing s with
  | nil => exact ⟨⟨h, .refl region _⟩, rfl, fun _ _ => ⟨Iff.rfl, rfl⟩⟩
  | cons head rest ih =>
    obtain ⟨hone, hframe⟩ := h.unsubscribeOne (hregion head List.mem_cons_self)
    obtain ⟨⟨hkept, hrest⟩, hws, hother⟩ :=
      ih hone fun symbol hsymbol => hregion symbol (List.mem_cons_of_mem _ hsymbol)
    refine ⟨⟨hkept, hframe.trans hrest⟩, hws, ?_⟩
    intro symbol hsymbol
    have hhead : symbol ≠ head := fun hsame => hsymbol (hsame ▸ List.mem_cons_self)
    obtain ⟨hmem, hwindow⟩ := hother symbol fun hin => hsymbol (List.mem_cons_of_mem _ hin)
    constructor
    · refine hmem.trans ?_
      exact List.mem_erase_of_ne hhead
    · refine hwindow.trans ?_
      simp only [NhSession.unsubscribeOne, Dict.get?_erase]
      rw [if_neg hhead]

theorem mem_of_mem_unsubscribe (h : symbol ∈ (s.unsubscribe symbols).slot.subscribed) :
    symbol ∈ s.slot.subscribed := by
  induction symbols generalizing s with
  | nil => exact h
  | cons head rest ih => exact List.mem_of_mem_erase (ih h)

theorem not_mem_unsubscribe (hnodup : s.slot.subscribed.Nodup) (hsymbol : symbol ∈ symbols) :
    symbol ∉ (s.unsubscribe symbols).slot.subscribed := by
  induction symbols generalizing s with
  | nil => cases hsymbol
  | cons head rest ih =>
    intro hmem
    rcases List.mem_cons.mp hsymbol with rfl | hrest
    · have hone := mem_of_mem_unsubscribe (s := s.unsubscribeOne symbol) hmem
      exact hnodup.not_mem_erase hone
    · exact ih (s := s.unsubscribeOne head) (hnodup.erase head) hrest hmem

variable (h : SessionKept region s)
include h

theorem SessionKept.subscribeOne (hregion : region symbol) (hnew : symbol ∉ s.slot.subscribed)
    (hconnected : s.slot.ws ≠ none) :
    SessionKept region (s.subscribeOne symbol) ∧
      TapeFrame region s.tape (s.subscribeOne symbol).tape := by
  refine ⟨⟨?_, fun hws => absurd hws hconnected, ?_, ?_, ?_⟩, ⟨?_, Nat.le_succ _⟩⟩
  · simp only [NhSession.subscribeOne]
    rw [List.nodup_append]
    refine ⟨h.nodup, List.nodup_singleton _, ?_⟩
    intro found hfound other hother hsame
    obtain rfl := List.mem_singleton.mp hother
    exact hnew (hsame ▸ hfound)
  · intro other hother
    rcases List.mem_append.mp hother with hold | hadded
    · exact h.within other hold
    · obtain rfl := List.mem_singleton.mp hadded
      exact hregion
  · intro other hother
    simp only [NhSession.subscribeOne, Dict.get?_set, List.mem_append, List.mem_singleton]
    split
    next hsame => simp [hsame]
    next hdifferent =>
      rw [h.windows other hother]
      simp [hdifferent]
  · intro connection hws
    exact Nat.lt_succ_of_lt (h.serial connection hws)
  · intro other hother
    simp only [NhSession.subscribeOne, Dict.get?_set]
    rw [if_neg]
    rintro rfl
    exact hother hregion

/-- `_subscribe` loses the connection, or adds all the symbols and leaves the windows of the
others alone. -/
theorem SessionKept.subscribe (inputs : SlotInputs) (symbols : List String)
    (hregion : ∀ symbol ∈ symbols, region symbol) (hnodup : symbols.Nodup)
    (hnew : ∀ symbol ∈ symbols, symbol ∉ s.slot.subscribed) (hconnected : s.slot.ws ≠ none) :
    (SessionKept region (s.subscribe inputs symbols) ∧
      TapeFrame region s.tape (s.subscribe inputs symbols).tape) ∧
      ((s.subscribe inputs symbols).slot.ws = none ∨
        (s.subscribe inputs symbols).slot.ws = s.slot.ws ∧
        (∀ symbol, symbol ∈ (s.subscribe inputs symbols).slot.subscribed ↔
          symbol ∈ s.slot.subscribed ∨ symbol ∈ symbols) ∧
        ∀ symbol ∉ symbols, (s.subscribe inputs symbols).tape.windows.get? symbol =
          s.tape.windows.get? symbol) := by
  induction symbols generalizing s with
  | nil =>
    refine ⟨⟨h, .refl region _⟩, .inr ⟨rfl, ?_, fun _ _ => rfl⟩⟩
    intro symbol
    simp [NhSession.subscribe]
  | cons head rest ih =>
    obtain ⟨hhead, hrest⟩ := List.nodup_cons.mp hnodup
    unfold NhSession.subscribe
    split
    · obtain ⟨hone, hframe⟩ := h.subscribeOne (hregion head List.mem_cons_self)
        (hnew head List.mem_cons_self) hconnected
      have hfresh : ∀ symbol ∈ rest, symbol ∉ (s.subscribeOne head).slot.subscribed := by
        intro symbol hsymbol hmem
        rcases List.mem_append.mp hmem with hold | hadded
        · exact hnew symbol (List.mem_cons_of_mem _ hsymbol) hold
        · obtain rfl := List.mem_singleton.mp hadded
          exact hhead hsymbol
      obtain ⟨⟨hkept, hlater⟩, hend⟩ := ih hone
        (fun symbol hsymbol => hregion symbol (List.mem_cons_of_mem _ hsymbol)) hrest hfresh
        hconnected
      refine ⟨⟨hkept, hframe.trans hlater⟩, ?_⟩
      rcases hend with hlost | ⟨hws, hmem, hwindows⟩
      · exact .inl hlost
      · refine .inr ⟨hws, ?_, ?_⟩
        · intro symbol
          rw [hmem symbol]
          simp only [NhSession.subscribeOne, List.mem_append, List.mem_cons,
            List.not_mem_nil, or_false]
          exact or_assoc
        · intro symbol hsymbol
          rw [hwindows symbol fun hin => hsymbol (List.mem_cons_of_mem _ hin)]
          simp only [NhSession.subscribeOne, Dict.get?_set]
          rw [if_neg]
          rintro rfl
          exact hsymbol List.mem_cons_self
    · have hacked : SessionKept region (s.readAck inputs.ackedSince) ∧
          (s.readAck inputs.ackedSince).tape = s.tape := by
        unfold NhSession.readAck
        split
        · exact ⟨h.congr rfl rfl rfl, rfl⟩
        · exact ⟨h, rfl⟩
      obtain ⟨hkept, hframe⟩ := hacked.1.dropConnection inputs.failedAt
      rw [hacked.2] at hframe
      exact ⟨⟨hkept, hframe⟩, .inl rfl⟩

theorem SessionKept.connect (inputs : SlotInputs) (hws : s.slot.ws = none) :
    (SessionKept region (s.connect inputs) ∧
      TapeFrame region s.tape (s.connect inputs).tape) ∧
      ((s.connect inputs).slot.ws = none ∨
        (s.connect inputs).slot.ws = some s.tape.nextSerial) := by
  have hnone := h.unconnected hws
  unfold NhSession.connect
  split
  · refine ⟨⟨⟨List.nodup_nil, fun _ => rfl, ?_, ?_, ?_⟩, ⟨fun _ _ => rfl, Nat.le_succ _⟩⟩, .inr rfl⟩
    · intro symbol hmem
      cases hmem
    · intro symbol hregion
      dsimp only
      rw [h.windows symbol hregion, hnone]
    · intro connection hconnection
      cases hconnection
      exact Nat.lt_succ_self _
  · exact ⟨⟨h.congr rfl hws.symm rfl, .refl region _⟩, .inl rfl⟩

theorem SessionKept.checkAlive (now : ℤ) (inputs : SlotInputs) :
    (SessionKept region (s.checkAlive now inputs) ∧
      TapeFrame region s.tape (s.checkAlive now inputs).tape) ∧
      ((s.checkAlive now inputs).slot.ws = none ∨
        (s.checkAlive now inputs).slot.ws = s.slot.ws ∧
        (s.checkAlive now inputs).slot.subscribed = s.slot.subscribed ∧
        (s.checkAlive now inputs).tape = s.tape) := by
  have hread : ∃ read, (s.readFrame inputs.frameAt).readAck inputs.acked = read ∧
      read.slot.ws = s.slot.ws ∧ read.slot.subscribed = s.slot.subscribed ∧
      read.tape = s.tape := by
    refine ⟨_, rfl, ?_⟩
    unfold readAck readFrame
    split
    · split
      · exact ⟨rfl, rfl, rfl⟩
      · exact ⟨rfl, rfl, rfl⟩
    · split
      · exact ⟨rfl, rfl, rfl⟩
      · exact ⟨rfl, rfl, rfl⟩
  obtain ⟨read, hread, hws, hsubscribed, htape⟩ := hread
  have hkept : SessionKept region read := h.congr hsubscribed hws htape
  have hlost : ∀ lostAt, SessionKept region (read.dropConnection lostAt) ∧
      TapeFrame region s.tape (read.dropConnection lostAt).tape := by
    intro lostAt
    rw [← htape]
    exact hkept.dropConnection lostAt
  unfold NhSession.checkAlive
  simp only [hread]
  by_cases hdone : read.slot.ws.isSome = true ∧ inputs.readerDone = true
  · rw [if_pos hdone, if_neg]
    · exact ⟨hlost inputs.lostAt, .inl rfl⟩
    · rintro ⟨hsome, _⟩
      cases hsome
  · rw [if_neg hdone]
    split
    · exact ⟨hlost inputs.lostAt, .inl rfl⟩
    · refine ⟨⟨hkept, ?_⟩, .inr ⟨hws, hsubscribed, htape⟩⟩
      rw [htape]
      exact .refl region _

end Operations

/-- What the round of one session leaves: its symbols are planned ones, all of them when the
session is connected, and on the same connection what is planned still has its window. -/
structure RoundDone (region : String → Prop) (wanted : List String) (s s' : NhSession) :
    Prop where
  kept : SessionKept region s'
  planned : ∀ symbol ∈ s'.slot.subscribed, symbol ∈ wanted
  complete : s'.slot.ws.isSome = true → ∀ symbol ∈ wanted, symbol ∈ s'.slot.subscribed
  unmoved : ∀ connection, s.slot.ws = some connection → s'.slot.ws = some connection →
    ∀ symbol ∈ s.slot.subscribed, symbol ∈ wanted →
      s'.tape.windows.get? symbol = s.tape.windows.get? symbol

section Round

variable {wanted : List String}

theorem RoundDone.of_unconnected (h : SessionKept region s') (hws : s'.slot.ws = none) :
    RoundDone region wanted s s' := by
  refine ⟨h, ?_, ?_, ?_⟩
  · intro symbol hmem
    rw [h.unconnected hws] at hmem
    cases hmem
  · intro hsome
    rw [hws] at hsome
    cases hsome
  · intro connection _ hsame
    rw [hws] at hsame
    cases hsame

theorem SessionKept.applyPlan (h : SessionKept region s) (inputs : SlotInputs)
    (hwanted : ∀ symbol ∈ wanted, region symbol) (hnodup : wanted.Nodup)
    (hconnected : s.slot.ws ≠ none) :
    RoundDone region wanted s (s.applyPlan inputs wanted) ∧
      TapeFrame region s.tape (s.applyPlan inputs wanted).tape ∧
      ((s.applyPlan inputs wanted).slot.ws = none ∨
        (s.applyPlan inputs wanted).slot.ws = s.slot.ws) := by
  have hremoved : ∀ symbol ∈ s.slot.subscribed.filter fun symbol => symbol ∉ wanted,
      region symbol := fun symbol hsymbol => h.within symbol (List.mem_filter.mp hsymbol).1
  obtain ⟨⟨hleft, hframe⟩, hws, hother⟩ := h.unsubscribe _ hremoved
  have hadded : ∀ symbol ∈ wanted.filter fun symbol => symbol ∉ s.slot.subscribed,
      region symbol := fun symbol hsymbol => hwanted symbol (List.mem_filter.mp hsymbol).1
  have hfresh : ∀ symbol ∈ wanted.filter fun symbol => symbol ∉ s.slot.subscribed,
      symbol ∉ (s.unsubscribe
        (s.slot.subscribed.filter fun symbol => symbol ∉ wanted)).slot.subscribed := by
    intro symbol hsymbol hmem
    obtain ⟨hplanned, hnew⟩ := List.mem_filter.mp hsymbol
    have hkeeps : symbol ∉ s.slot.subscribed.filter fun symbol => symbol ∉ wanted := by
      intro hgone
      exact of_decide_eq_true (List.mem_filter.mp hgone).2 hplanned
    exact of_decide_eq_true hnew ((hother symbol hkeeps).1.mp hmem)
  obtain ⟨⟨hkept, hlater⟩, hend⟩ := hleft.subscribe inputs _ hadded (hnodup.filter _) hfresh
    (by rw [hws]; exact hconnected)
  refine ⟨?_, hframe.trans hlater, ?_⟩
  · rcases hend with hlost | ⟨_, hmem, hwindows⟩
    · exact .of_unconnected hkept hlost
    · refine ⟨hkept, ?_, ?_, ?_⟩
      · intro symbol hsymbol
        rcases (hmem symbol).mp hsymbol with hold | hnew
        · by_contra hunplanned
          have hgone : symbol ∈ s.slot.subscribed.filter fun symbol => symbol ∉ wanted := by
            refine List.mem_filter.mpr ⟨?_, decide_eq_true hunplanned⟩
            exact mem_of_mem_unsubscribe hold
          exact not_mem_unsubscribe h.nodup hgone hold
        · exact (List.mem_filter.mp hnew).1
      · intro _ symbol hsymbol
        refine (hmem symbol).mpr ?_
        by_cases hold : symbol ∈ s.slot.subscribed
        · refine .inl ((hother symbol ?_).1.mpr hold)
          intro hgone
          exact of_decide_eq_true (List.mem_filter.mp hgone).2 hsymbol
        · exact .inr (List.mem_filter.mpr ⟨hsymbol, decide_eq_true hold⟩)
      · intro connection _ _ symbol hsymbol hplanned
        have hstays : symbol ∉ s.slot.subscribed.filter fun symbol => symbol ∉ wanted := by
          intro hgone
          exact of_decide_eq_true (List.mem_filter.mp hgone).2 hplanned
        have hnotNew : symbol ∉ wanted.filter fun symbol => symbol ∉ s.slot.subscribed := by
          intro hnew
          exact of_decide_eq_true (List.mem_filter.mp hnew).2 hsymbol
        exact (hwindows symbol hnotNew).trans (hother symbol hstays).2
  · rcases hend with hlost | ⟨hsame, _, _⟩
    · exact .inl hlost
    · exact .inr (hsame.trans hws)

theorem SessionKept.reconcile (h : SessionKept region s) (now : ℤ) (inputs : SlotInputs)
    (wanted : List String) (hwanted : ∀ symbol ∈ wanted, region symbol)
    (hnodup : wanted.Nodup) :
    RoundDone region wanted s (s.reconcile now inputs wanted) ∧
      TapeFrame region s.tape (s.reconcile now inputs wanted).tape := by
  obtain ⟨⟨halive, hframe⟩, hcases⟩ := h.checkAlive now inputs
  unfold NhSession.reconcile
  dsimp only
  split
  · split
    · obtain ⟨⟨hleft, hgone⟩, _, _⟩ := halive.unsubscribe
        (s.checkAlive now inputs).slot.subscribed halive.within
      obtain ⟨hkept, hdrop⟩ := hleft.dropConnection inputs.lostAt
      exact ⟨.of_unconnected hkept rfl, (hframe.trans hgone).trans hdrop⟩
    next hunconnected =>
      have hws := Option.not_isSome_iff_eq_none.mp hunconnected
      exact ⟨.of_unconnected halive hws, hframe⟩
  · split
    next hconnected =>
      have hws : (s.checkAlive now inputs).slot.ws ≠ none :=
        Option.isSome_iff_ne_none.mp hconnected
      obtain ⟨hdone, hplan, _⟩ := halive.applyPlan inputs hwanted hnodup hws
      refine ⟨?_, hframe.trans hplan⟩
      rcases hcases with hlost | ⟨hsame, hsubscribed, htape⟩
      · exact absurd hlost hws
      · refine ⟨hdone.kept, hdone.planned, hdone.complete, ?_⟩
        intro connection hbefore hafter symbol hsymbol hplanned
        rw [← htape]
        exact hdone.unmoved connection (hsame.trans hbefore) hafter symbol
          (hsubscribed ▸ hsymbol) hplanned
    next hunconnected =>
      have hws := Option.not_isSome_iff_eq_none.mp hunconnected
      split
      · exact ⟨.of_unconnected halive hws, hframe⟩
      · obtain ⟨⟨hkept, hconnect⟩, hnew⟩ := halive.connect inputs hws
        split
        next hconnected =>
          have hup := Option.isSome_iff_ne_none.mp hconnected
          obtain ⟨hdone, hplan, hend⟩ := hkept.applyPlan inputs hwanted hnodup hup
          refine ⟨⟨hdone.kept, hdone.planned, hdone.complete, ?_⟩,
            (hframe.trans hconnect).trans hplan⟩
          intro connection hbefore hafter
          -- a connection made in this round has a new serial number
          exfalso
          have hold := h.serial connection hbefore
          have hgrown := hframe.serial
          rcases hend with hlost | hsame
          · rw [hlost] at hafter
            cases hafter
          · rw [hsame] at hafter
            rcases hnew with hnone | hserial
            · exact hup hnone
            · rw [hserial] at hafter
              cases hafter
              omega
        next hfailed =>
          have hnone := Option.not_isSome_iff_eq_none.mp hfailed
          exact ⟨.of_unconnected hkept hnone, hframe.trans hconnect⟩

end Round

def SlotJob.Touches (job : SlotJob) (symbol : String) : Prop :=
  symbol ∈ job.slot.subscribed ∨ symbol ∈ job.wanted

/-- What the loop leaves for one job, with the windows at the end of the loop. -/
abbrev JobDone (tape tape' : NhTape) (job : SlotJob) (slot : NhSlot) : Prop :=
  RoundDone job.Touches job.wanted ⟨job.slot, tape⟩ ⟨slot, tape'⟩

section Loop

theorem forall₂_of_mem {α β : Type*} {R R' : α → β → Prop} {xs : List α} {ys : List β}
    (h : List.Forall₂ R xs ys) (himp : ∀ x ∈ xs, ∀ y, R x y → R' x y) :
    List.Forall₂ R' xs ys := by
  induction h with
  | nil => exact .nil
  | cons hhead _ ih =>
    refine .cons (himp _ List.mem_cons_self _ hhead) (ih ?_)
    intro x hx
    exact himp x (List.mem_cons_of_mem _ hx)

variable {jobs : List SlotJob} {now : ℤ}

variable {job : SlotJob} {slot : NhSlot}

theorem JobDone.frame {early late : NhTape} (h : JobDone tape early job slot)
    (hother : ∀ symbol, job.Touches symbol → late.windows.get? symbol = early.windows.get? symbol)
    (hserial : early.nextSerial ≤ late.nextSerial) : JobDone tape late job slot := by
  refine ⟨h.kept.frame hother hserial, h.planned, h.complete, ?_⟩
  intro connection hbefore hafter symbol hsymbol hplanned
  exact (hother symbol (.inl hsymbol)).trans
    (h.unmoved connection hbefore hafter symbol hsymbol hplanned)

theorem JobDone.start {early : NhTape} (h : JobDone early tape' job slot)
    (hother : ∀ symbol, job.Touches symbol → early.windows.get? symbol = tape.windows.get? symbol) :
    JobDone tape tape' job slot := by
  refine ⟨h.kept, h.planned, h.complete, ?_⟩
  intro connection hbefore hafter symbol hsymbol hplanned
  exact (h.unmoved connection hbefore hafter symbol hsymbol hplanned).trans
    (hother symbol (.inl hsymbol))

theorem reconcileSlots_done (now : ℤ) (jobs : List SlotJob) (tape : NhTape)
    (hdisjoint : jobs.Pairwise fun a b => ∀ symbol, a.Touches symbol → ¬ b.Touches symbol)
    (hkept : ∀ job ∈ jobs, SessionKept job.Touches ⟨job.slot, tape⟩)
    (hnodup : ∀ job ∈ jobs, job.wanted.Nodup) :
    List.Forall₂ (JobDone tape (reconcileSlots now jobs tape).2) jobs
        (reconcileSlots now jobs tape).1 ∧
      (∀ symbol, (∀ job ∈ jobs, ¬ job.Touches symbol) →
        (reconcileSlots now jobs tape).2.windows.get? symbol = tape.windows.get? symbol) ∧
      tape.nextSerial ≤ (reconcileSlots now jobs tape).2.nextSerial := by
  induction jobs generalizing tape with
  | nil => exact ⟨.nil, fun _ _ => rfl, le_rfl⟩
  | cons job rest ih =>
    obtain ⟨haway, hrest⟩ := List.pairwise_cons.mp hdisjoint
    have hhead := hkept job List.mem_cons_self
    obtain ⟨hdone, hframe⟩ := hhead.reconcile now job.inputs job.wanted
      (fun symbol hsymbol => .inr hsymbol) (hnodup job List.mem_cons_self)
    generalize hround : reconcile ⟨job.slot, tape⟩ now job.inputs job.wanted =
      done at hdone hframe
    have hlater : ∀ other ∈ rest, ∀ symbol, other.Touches symbol →
        done.tape.windows.get? symbol = tape.windows.get? symbol := by
      intro other hother symbol htouches
      apply hframe.outside
      intro hself
      exact haway other hother symbol hself htouches
    have hready : ∀ other ∈ rest, SessionKept other.Touches ⟨other.slot, done.tape⟩ := by
      intro other hother
      exact (hkept other (List.mem_cons_of_mem _ hother)).frame (hlater other hother)
        hframe.serial
    obtain ⟨hall, houtside, hserial⟩ := ih done.tape hrest hready
      fun other hother => hnodup other (List.mem_cons_of_mem _ hother)
    unfold reconcileSlots
    simp only [hround]
    refine ⟨.cons ?_ ?_, ?_, hframe.serial.trans hserial⟩
    · refine JobDone.frame hdone ?_ hserial
      intro symbol hself
      apply houtside
      intro other hother htouches
      exact haway other hother symbol hself htouches
    · refine forall₂_of_mem hall ?_
      intro other hother slot hslot
      exact JobDone.start hslot (hlater other hother)
    · intro symbol hout
      rw [houtside symbol fun other hother => hout other (List.mem_cons_of_mem _ hother)]
      exact hframe.outside symbol (hout job List.mem_cons_self)

end Loop

structure RunnerKept (w : NhRunner) : Prop where
  length : w.slots.length = maxSessions
  nodup : (w.slots.map NhSlot.subscribed).flatten.Nodup
  capacity : ∀ slot ∈ w.slots, slot.subscribed.length ≤ symbolsPerSession
  unconnected : ∀ slot ∈ w.slots, slot.ws = none → slot.subscribed = []
  windows : ∀ symbol, (w.tape.windows.get? symbol).isSome = true ↔
    ∃ slot ∈ w.slots, symbol ∈ slot.subscribed
  serial : ∀ slot ∈ w.slots, ∀ connection, slot.ws = some connection →
    connection < w.tape.nextSerial
  budget : w.desired = w.demanded.first maxSymbols

section Runner

variable {w : NhRunner} {inputs : TickInputs}

variable (h : RunnerKept w)

section

include h

theorem RunnerKept.disjoint :
    w.slots.Pairwise fun a b => ∀ symbol ∈ a.subscribed, symbol ∉ b.subscribed := by
  have hpairs := (List.nodup_flatten.mp h.nodup).2
  rw [List.pairwise_map] at hpairs
  refine hpairs.imp ?_
  intro a b hdisjoint symbol ha hb
  exact hdisjoint ha hb

theorem RunnerKept.slot_nodup {slot : NhSlot} (hslot : slot ∈ w.slots) :
    slot.subscribed.Nodup :=
  (List.nodup_flatten.mp h.nodup).1 _ (List.mem_map_of_mem hslot)

theorem RunnerKept.sound : RunnerSound w :=
  ⟨h.disjoint, fun _ hslot => h.slot_nodup hslot, h.capacity, h.windows, h.budget⟩

theorem RunnerKept.planKept :
    PlanKept w.desired.symbols (w.slots.map NhSlot.subscribed) w.plan := by
  apply planKept_assignment h.nodup
  intro group hgroup
  obtain ⟨slot, hslot, rfl⟩ := List.mem_map.mp hgroup
  exact h.capacity slot hslot

theorem RunnerKept.plan_length : w.plan.length = w.slots.length := by
  rw [h.planKept.length, List.length_map]

end

variable {i : ℕ} {job : SlotJob} {symbol : String}

theorem jobs_getElem? {slotInputs : ℕ → SlotInputs} :
    (w.jobs slotInputs)[i]? = some job ↔ w.slots[i]? = some job.slot ∧
      w.plan[i]? = some job.wanted ∧ job.inputs = slotInputs i := by
  unfold jobs
  rw [List.getElem?_mapIdx, Option.map_eq_some_iff]
  constructor
  · rintro ⟨⟨slot, wanted⟩, hpair, rfl⟩
    obtain ⟨hslot, hwanted⟩ := List.getElem?_zip_eq_some.mp hpair
    exact ⟨hslot, hwanted, rfl⟩
  · rintro ⟨hslot, hwanted, hinputs⟩
    refine ⟨(job.slot, job.wanted), List.getElem?_zip_eq_some.mpr ⟨hslot, hwanted⟩, ?_⟩
    rw [← hinputs]

variable {desired : List String} {subscribed plan : List (List String)}

theorem PlanKept.stays_at (h : PlanKept desired subscribed plan) {before after : List String}
    (hbefore : subscribed[i]? = some before) (hafter : plan[i]? = some after)
    (hsymbol : symbol ∈ before) (hwanted : symbol ∈ desired) : symbol ∈ after := by
  have hstays := h.stays
  clear h
  induction hstays generalizing i with
  | nil => cases hbefore
  | cons hhead _ ih =>
    cases i with
    | zero =>
      cases hbefore
      cases hafter
      exact hhead symbol hsymbol hwanted
    | succ i => exact ih hbefore hafter

theorem PlanKept.group_wanted (h : PlanKept desired subscribed plan) {group : List String}
    (hgroup : plan[i]? = some group) (hsymbol : symbol ∈ group) :
    symbol ∈ desired :=
  h.wanted symbol (List.mem_flatten.mpr ⟨group, List.mem_of_getElem? hgroup, hsymbol⟩)

/-- Lists whose concatenation has no duplicates share nothing at different places. -/
theorem not_mem_of_nodup_flatten {groups : List (List String)} (h : groups.flatten.Nodup) {i j : ℕ}
    {a b : List String} (hlt : i < j) (ha : groups[i]? = some a) (hb : groups[j]? = some b)
    (hsymbol : symbol ∈ a) : symbol ∉ b := by
  have hpairs := (List.nodup_flatten.mp h).2
  obtain ⟨hi, rfl⟩ := List.getElem?_eq_some_iff.mp ha
  obtain ⟨hj, rfl⟩ := List.getElem?_eq_some_iff.mp hb
  have hdisjoint := List.pairwise_iff_getElem.mp hpairs i j hi hj hlt
  exact fun hmem => hdisjoint hsymbol hmem

/-- The regions of two sessions never meet. -/
theorem RunnerKept.jobs_disjoint (h : RunnerKept w) (slotInputs : ℕ → SlotInputs) :
    (w.jobs slotInputs).Pairwise fun a b =>
      ∀ symbol, a.Touches symbol → ¬ b.Touches symbol := by
  rw [List.pairwise_iff_getElem]
  intro i j hi hj hlt symbol hfirst hsecond
  obtain ⟨hslot, hplan, _⟩ := jobs_getElem?.mp (List.getElem?_eq_getElem hi)
  obtain ⟨hslot', hplan', _⟩ := jobs_getElem?.mp (List.getElem?_eq_getElem hj)
  have hsub : (w.slots.map NhSlot.subscribed)[i]? =
      some ((w.jobs slotInputs)[i]).slot.subscribed := by
    rw [List.getElem?_map, hslot]
    rfl
  have hsub' : (w.slots.map NhSlot.subscribed)[j]? =
      some ((w.jobs slotInputs)[j]).slot.subscribed := by
    rw [List.getElem?_map, hslot']
    rfl
  have hkept := h.planKept
  rcases hfirst with hcarried | hplanned
  · rcases hsecond with hcarried' | hplanned'
    · exact not_mem_of_nodup_flatten h.nodup hlt hsub hsub' hcarried hcarried'
    · have hwanted := hkept.group_wanted hplan' hplanned'
      have hstays := hkept.stays_at hsub hplan hcarried hwanted
      exact not_mem_of_nodup_flatten hkept.nodup hlt hplan hplan' hstays hplanned'
  · rcases hsecond with hcarried' | hplanned'
    · have hwanted := hkept.group_wanted hplan hplanned
      have hstays := hkept.stays_at hsub' hplan' hcarried' hwanted
      exact not_mem_of_nodup_flatten hkept.nodup hlt hplan hplan' hplanned hstays
    · exact not_mem_of_nodup_flatten hkept.nodup hlt hplan hplan' hplanned hplanned'

/-- A window in the region of a job is one of its own session: another session that has the
symbol would keep it, if it is wanted. -/
theorem RunnerKept.job_kept (h : RunnerKept w) (slotInputs : ℕ → SlotInputs)
    (hjob : job ∈ w.jobs slotInputs) : SessionKept job.Touches ⟨job.slot, w.tape⟩ := by
  obtain ⟨i, hi⟩ := List.mem_iff_getElem?.mp hjob
  obtain ⟨hslot, hplan, _⟩ := jobs_getElem?.mp hi
  have hmem := List.mem_of_getElem? hslot
  refine ⟨h.slot_nodup hmem, h.unconnected _ hmem, fun _ hsymbol => .inl hsymbol, ?_,
    h.serial _ hmem⟩
  intro symbol htouches
  constructor
  · intro hwindow
    obtain ⟨other, hother, hcarried⟩ := (h.windows symbol).mp hwindow
    rcases htouches with hself | hplanned
    · exact hself
    · obtain ⟨j, hj⟩ := List.mem_iff_getElem?.mp hother
      have hsub : (w.slots.map NhSlot.subscribed)[j]? = some other.subscribed := by
        rw [List.getElem?_map, hj]
        rfl
      have hwanted := h.planKept.group_wanted hplan hplanned
      obtain ⟨hbound, _⟩ := List.getElem?_eq_some_iff.mp hj
      have hgroup := List.getElem?_eq_getElem (h.plan_length.symm ▸ hbound)
      have hstays := h.planKept.stays_at hsub hgroup hcarried hwanted
      rcases Nat.lt_trichotomy i j with hlt | rfl | hlt
      · exact absurd hstays
          (not_mem_of_nodup_flatten h.planKept.nodup hlt hplan hgroup hplanned)
      · rw [hslot] at hj
        cases hj
        exact hcarried
      · exact absurd hplanned
          (not_mem_of_nodup_flatten h.planKept.nodup hlt hgroup hplan hstays)
  · intro hcarried
    exact (h.windows symbol).mpr ⟨job.slot, hmem, hcarried⟩

theorem forall₂_getElem? {α β : Type*} {R : α → β → Prop} {xs : List α} {ys : List β}
    (h : List.Forall₂ R xs ys) {y : β} (hy : ys[i]? = some y) :
    ∃ x, xs[i]? = some x ∧ R x y := by
  induction h generalizing i with
  | nil => cases hy
  | cons hhead _ ih =>
    cases i with
    | zero =>
      cases hy
      exact ⟨_, rfl, hhead⟩
    | succ i => exact ih hy

section

include h

theorem RunnerKept.length_jobs (slotInputs : ℕ → SlotInputs) :
    (w.jobs slotInputs).length = w.slots.length := by
  unfold jobs
  rw [List.length_mapIdx, List.length_zip, h.plan_length, Nat.min_self]

theorem RunnerKept.job_of_slot (slotInputs : ℕ → SlotInputs) {slot : NhSlot}
    (hslot : slot ∈ w.slots) :
    ∃ job ∈ w.jobs slotInputs, job.slot = slot := by
  obtain ⟨i, hi⟩ := List.mem_iff_getElem?.mp hslot
  obtain ⟨hbound, _⟩ := List.getElem?_eq_some_iff.mp hi
  have hjob := List.getElem?_eq_getElem ((h.length_jobs slotInputs).symm ▸ hbound)
  obtain ⟨hsame, _, _⟩ := jobs_getElem?.mp hjob
  rw [hi] at hsame
  exact ⟨_, List.mem_of_getElem? hjob, (Option.some.inj hsame).symm⟩

theorem RunnerKept.done_all (inputs : TickInputs) :
    List.Forall₂ (JobDone w.tape (w.reconcile inputs).tape) (w.jobs inputs.slots)
        (w.reconcile inputs).slots ∧
      ∀ symbol, (∀ job ∈ w.jobs inputs.slots, ¬ job.Touches symbol) →
        (w.reconcile inputs).tape.windows.get? symbol = w.tape.windows.get? symbol := by
  have hnodup : ∀ job ∈ w.jobs inputs.slots, job.wanted.Nodup := by
    intro job hjob
    obtain ⟨j, hj⟩ := List.mem_iff_getElem?.mp hjob
    obtain ⟨_, hplan, _⟩ := jobs_getElem?.mp hj
    exact (List.nodup_flatten.mp h.planKept.nodup).1 _ (List.mem_of_getElem? hplan)
  obtain ⟨hall, houtside, _⟩ := reconcileSlots_done inputs.reconcileAt (w.jobs inputs.slots)
    w.tape (h.jobs_disjoint inputs.slots) (fun _ hjob => h.job_kept inputs.slots hjob) hnodup
  exact ⟨hall, houtside⟩

theorem RunnerKept.done_at (inputs : TickInputs) {i : ℕ} {slot' : NhSlot}
    (hslot' : (w.reconcile inputs).slots[i]? = some slot') :
    ∃ job, w.slots[i]? = some job.slot ∧ w.plan[i]? = some job.wanted ∧
      JobDone w.tape (w.reconcile inputs).tape job slot' := by
  obtain ⟨job, hjob, hdone⟩ := forall₂_getElem? (h.done_all inputs).1 hslot'
  obtain ⟨hslot, hplan, _⟩ := jobs_getElem?.mp hjob
  exact ⟨job, hslot, hplan, hdone⟩

theorem RunnerKept.reconcile (inputs : TickInputs) :
    RunnerKept (w.reconcile inputs) := by
  obtain ⟨hall, houtside⟩ := h.done_all inputs
  have hlength : (w.reconcile inputs).slots.length = maxSessions := by
    rw [← hall.length_eq, h.length_jobs, h.length]
  have hat : ∀ slot' ∈ (w.reconcile inputs).slots, ∃ job, job.wanted ∈ w.plan ∧
      JobDone w.tape (w.reconcile inputs).tape job slot' := by
    intro slot' hslot'
    obtain ⟨i, hi⟩ := List.mem_iff_getElem?.mp hslot'
    obtain ⟨job, _, hplan, hdone⟩ := h.done_at inputs hi
    exact ⟨job, List.mem_of_getElem? hplan, hdone⟩
  refine ⟨hlength, ?_, ?_, ?_, ?_, ?_, h.budget⟩
  · rw [List.nodup_flatten]
    constructor
    · intro group hgroup
      obtain ⟨slot', hslot', rfl⟩ := List.mem_map.mp hgroup
      obtain ⟨_, _, hdone⟩ := hat slot' hslot'
      exact hdone.kept.nodup
    · rw [List.pairwise_map, List.pairwise_iff_getElem]
      intro i j hi hj hlt symbol hfirst hsecond
      obtain ⟨job, _, hplan, hdone⟩ := h.done_at inputs (List.getElem?_eq_getElem hi)
      obtain ⟨job', _, hplan', hdone'⟩ := h.done_at inputs (List.getElem?_eq_getElem hj)
      exact not_mem_of_nodup_flatten h.planKept.nodup hlt hplan hplan'
        (hdone.planned symbol hfirst) (hdone'.planned symbol hsecond)
  · intro slot' hslot'
    obtain ⟨job, hplan, hdone⟩ := hat slot' hslot'
    have hsub := List.subperm_of_subset hdone.kept.nodup hdone.planned
    exact hsub.length_le.trans (h.planKept.capacity _ hplan)
  · intro slot' hslot'
    obtain ⟨_, _, hdone⟩ := hat slot' hslot'
    exact hdone.kept.unconnected
  · intro symbol
    constructor
    · intro hwindow
      by_cases htouched : ∃ job ∈ w.jobs inputs.slots, job.Touches symbol
      · obtain ⟨job, hjob, htouches⟩ := htouched
        obtain ⟨i, hi⟩ := List.mem_iff_getElem?.mp hjob
        obtain ⟨hbound, _⟩ := List.getElem?_eq_some_iff.mp hi
        have hslot' := List.getElem?_eq_getElem (hall.length_eq ▸ hbound)
        obtain ⟨other, hother, hdone⟩ := forall₂_getElem? hall hslot'
        rw [hi] at hother
        cases hother
        exact ⟨_, List.mem_of_getElem? hslot', (hdone.kept.windows symbol htouches).mp hwindow⟩
      · push Not at htouched
        rw [houtside symbol htouched] at hwindow
        obtain ⟨slot, hslot, hcarried⟩ := (h.windows symbol).mp hwindow
        obtain ⟨job, hjob, rfl⟩ := h.job_of_slot inputs.slots hslot
        exact absurd (.inl hcarried) (htouched job hjob)
    · rintro ⟨slot', hslot', hcarried⟩
      obtain ⟨_, _, hdone⟩ := hat slot' hslot'
      exact (hdone.kept.windows symbol (.inr (hdone.planned symbol hcarried))).mpr hcarried
  · intro slot' hslot'
    obtain ⟨_, _, hdone⟩ := hat slot' hslot'
    exact hdone.kept.serial

end

theorem close_slot {slot : NhSlot} {tape : NhTape} {now : ℤ} :
    (NhSession.close ⟨slot, tape⟩ now).subscribed = [] ∧
      (NhSession.close ⟨slot, tape⟩ now).ws = none := by
  unfold close
  split
  · exact ⟨rfl, rfl⟩
  next hidle =>
    push Not at hidle
    exact ⟨hidle.2, Option.not_isSome_iff_eq_none.mp hidle.1⟩

theorem RunnerKept.closeAll (h : RunnerKept w) (now : ℤ) : RunnerKept (w.closeAll now) := by
  have hclosed : ∀ slot ∈ (w.closeAll now).slots, slot.subscribed = [] ∧ slot.ws = none := by
    intro slot hslot
    obtain ⟨old, _, rfl⟩ := List.mem_map.mp hslot
    exact close_slot
  refine ⟨?_, ?_, ?_, ?_, ?_, ?_, rfl⟩
  · exact (List.length_map _).trans h.length
  · rw [List.nodup_flatten]
    constructor
    · intro group hgroup
      obtain ⟨slot, hslot, rfl⟩ := List.mem_map.mp hgroup
      rw [(hclosed slot hslot).1]
      exact List.nodup_nil
    · rw [List.pairwise_map]
      refine List.pairwise_of_forall_mem_list ?_
      intro a ha b _ symbol hsymbol
      rw [(hclosed a ha).1] at hsymbol
      cases hsymbol
  · intro slot hslot
    rw [(hclosed slot hslot).1]
    exact Nat.zero_le _
  · intro slot hslot _
    exact (hclosed slot hslot).1
  · intro symbol
    constructor
    · intro hwindow
      cases hwindow
    · rintro ⟨slot, hslot, hcarried⟩
      rw [(hclosed slot hslot).1] at hcarried
      cases hcarried
  · intro slot hslot connection hws
    rw [(hclosed slot hslot).2] at hws
    cases hws

theorem RunnerKept.loadDemand (h : RunnerKept w) (inputs : TickInputs) :
    RunnerKept (w.loadDemand inputs) ∧ (w.loadDemand inputs).slots = w.slots ∧
      (w.loadDemand inputs).tape = w.tape := by
  unfold NhRunner.loadDemand
  split
  · dsimp only
    split
    · refine ⟨⟨h.length, h.nodup, h.capacity, h.unconnected, h.windows, h.serial, h.budget⟩, ?_⟩
      exact ⟨rfl, rfl⟩
    · refine ⟨⟨h.length, h.nodup, h.capacity, h.unconnected, h.windows, h.serial, rfl⟩, ?_⟩
      exact ⟨rfl, rfl⟩
  · exact ⟨h, rfl, rfl⟩

theorem RunnerKept.tick (h : RunnerKept w) (inputs : TickInputs) :
    RunnerKept (w.tick inputs).2 := by
  unfold NhRunner.tick
  split
  · exact h.closeAll inputs.closedAt
  · split
    · exact h.closeAll inputs.closedAt
    · exact (h.loadDemand inputs).1.reconcile inputs

theorem RunnerKept.reconcile_sound (h : RunnerKept w) (inputs : TickInputs) :
    TickSound w (w.reconcile inputs) := by
  have hbudget : w.desired.symbols.length ≤
      (w.slots.map NhSlot.subscribed).length * symbolsPerSession := by
    rw [h.budget, List.length_map, h.length]
    refine (List.length_take_le _ _).trans ?_
    exact le_of_eq (Nat.mul_comm _ _)
  have hcapacity : ∀ group ∈ w.slots.map NhSlot.subscribed,
      group.length ≤ symbolsPerSession := by
    intro group hgroup
    obtain ⟨slot, hslot, rfl⟩ := List.mem_map.mp hgroup
    exact h.capacity slot hslot
  constructor
  · intro i slot slot' hslot hslot' connection hbefore hafter symbol hsymbol hwanted
    obtain ⟨job, hold, hplan, hdone⟩ := h.done_at inputs hslot'
    rw [hslot] at hold
    cases hold
    have hsub : (w.slots.map NhSlot.subscribed)[i]? = some job.slot.subscribed := by
      rw [List.getElem?_map, hslot]
      rfl
    have hplanned := h.planKept.stays_at hsub hplan hsymbol hwanted
    constructor
    · exact hdone.complete (by rw [hafter]; rfl) symbol hplanned
    · exact hdone.unmoved connection hbefore hafter symbol hsymbol hplanned
  · intro hconnected symbol
    have hdesired : (w.reconcile inputs).demanded.first maxSymbols = w.desired := h.budget.symm
    rw [hdesired]
    constructor
    · rintro ⟨slot', hslot', hcarried⟩
      obtain ⟨i, hi⟩ := List.mem_iff_getElem?.mp hslot'
      obtain ⟨job, _, hplan, hdone⟩ := h.done_at inputs hi
      exact h.planKept.group_wanted hplan (hdone.planned symbol hcarried)
    · intro hwanted
      have hplaced := mem_assignment h.nodup hcapacity hbudget hwanted
      obtain ⟨group, hgroup, hmem⟩ := List.mem_flatten.mp hplaced
      obtain ⟨i, hi⟩ := List.mem_iff_getElem?.mp hgroup
      obtain ⟨slot', hslot', hws⟩ := hconnected i group hi (List.ne_nil_of_mem hmem)
      obtain ⟨job, _, hplan, hdone⟩ := h.done_at inputs hslot'
      have hsame : job.wanted = group := Option.some.inj (hplan.symm.trans hi)
      exact ⟨slot', List.mem_of_getElem? hslot', hdone.complete hws symbol (hsame ▸ hmem)⟩

theorem RunnerKept.closeAll_sound (now : ℤ) : TickSound w (w.closeAll now) := by
  have hclosed : ∀ slot ∈ (w.closeAll now).slots, slot.subscribed = [] ∧ slot.ws = none := by
    intro slot hslot
    obtain ⟨old, _, rfl⟩ := List.mem_map.mp hslot
    exact close_slot
  constructor
  · intro i slot slot' _ hslot' connection _ hafter
    rw [(hclosed slot' (List.mem_of_getElem? hslot')).2] at hafter
    cases hafter
  · intro _ symbol
    constructor
    · rintro ⟨slot, hslot, hcarried⟩
      rw [(hclosed slot hslot).1] at hcarried
      cases hcarried
    · intro hnone
      cases hnone

theorem RunnerKept.tick_sound (h : RunnerKept w) (inputs : TickInputs) :
    TickSound w (w.tick inputs).2 := by
  unfold NhRunner.tick
  split
  · exact RunnerKept.closeAll_sound inputs.closedAt
  · split
    · exact RunnerKept.closeAll_sound inputs.closedAt
    · obtain ⟨hkept, hslots, htape⟩ := h.loadDemand inputs
      have hsound := hkept.reconcile_sound inputs
      constructor
      · intro i slot slot' hslot
        rw [← hslots] at hslot
        rw [← htape]
        exact hsound.unmoved i slot slot' hslot
      · intro hconnected
        apply hsound.complete
        unfold AllConnected at hconnected ⊢
        rw [hslots]
        exact hconnected

theorem runnerKept_start : RunnerKept NhRunner.start := by
  refine ⟨rfl, ?_, ?_, ?_, ?_, ?_, rfl⟩
  · decide
  · intro slot hslot
    obtain rfl := List.eq_of_mem_replicate hslot
    exact Nat.zero_le _
  · intro slot hslot _
    obtain rfl := List.eq_of_mem_replicate hslot
    rfl
  · intro symbol
    constructor
    · intro hwindow
      cases hwindow
    · rintro ⟨slot, hslot, hcarried⟩
      obtain rfl := List.eq_of_mem_replicate hslot
      cases hcarried
  · intro slot hslot connection hws
    obtain rfl := List.eq_of_mem_replicate hslot
    cases hws

/-- Every session keeps its share of the demand, and every subscribed symbol its window. -/
theorem RunnerKept.of_reachable (h : Reachable RunnerStart NhRunner.step w) :
    RunnerKept w := by
  refine invariant ?_ ?_ h
  · rintro _ rfl
    exact runnerKept_start
  · intro _ inputs _ hkept _ hstep
    cases hstep
    exact hkept.tick inputs

end Runner

/-- Nothing fails. -/
def demoSlot : SlotInputs where
  frameAt := none
  acked := false
  readerDone := false
  lostAt := 0
  connects := true
  connectAt := 0
  sends _ := true
  ackedSince := false
  failedAt := 0

def demoTick : TickInputs where
  holdsLease := true
  sessionOpen := true
  loadAt := 0
  demand := some (demandSymbols ["005930"] ["000660", "005930"])
  reconcileAt := 0
  closedAt := 0
  slots _ := demoSlot

end KAssetTrader.NhPlug
