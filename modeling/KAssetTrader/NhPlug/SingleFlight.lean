import KAssetTrader.NhPlug.TokenCache

/-!
Single flight of token requests over every order of calls, processes and expiries. Whoever
is between its second read and its write holds the file lock, so the file it judged is the
file it replaces; and a token that was obtained and still lasts is the one in the file, or
the one that the holder of the lock is about to write.
-/

namespace KAssetTrader.NhPlug

open TokenWorld Transition

def TokenPhase.locksFile : TokenPhase → Bool
  | .locked | .judging _ | .issuing _ | .requested _ _ | .writing _ _ _ => true
  | _ => false

/-- From the decision to request a token to the end of the write. -/
def TokenPhase.committed : TokenPhase → Bool
  | .issuing _ | .requested _ _ | .writing _ _ _ => true
  | _ => false

def TokenPhase.requestSent : TokenPhase → Bool
  | .requested _ _ | .writing _ _ _ | .finished => true
  | _ => false

def TokenPhase.isWriting : TokenPhase → Bool
  | .writing _ _ _ => true
  | _ => false

section Phases

variable {phase : TokenPhase}

theorem TokenPhase.idle_of_unsent (h : phase.requestSent = false) : phase.isWriting = false := by
  cases phase <;> first | rfl | cases h

theorem TokenPhase.active_of_unsent (h : phase.requestSent = false) : phase ≠ .finished := by
  rintro rfl
  cases h

theorem TokenPhase.uncommitted_of_free (h : phase.locksFile = false) : phase.committed = false := by
  cases phase <;> first | rfl | cases h

end Phases

/-- What the calls under way know about the file, and where the tokens that last are. -/
structure CacheKept (w : TokenWorld) : Prop where
  holds : ∀ call, (w.phase call).locksFile = true → w.fileLock = some call
  judged : ∀ call cached, w.phase call = .judging cached → readTokenCache w.file = .ok cached
  spent : ∀ call, (w.phase call).committed = true → Spent w.file w.clock
  lasting : ∀ call started lifetime issued, w.phase call = .writing started lifetime issued →
    expiryMargin < lifetime → issued.validAt started = true
  live : ∀ call token, .obtained call token ∈ w.log → token.validAt w.clock = true →
    (∃ found, readTokenCache w.file = .ok (some found) ∧ found.expiresAt = token.expiresAt) ∨
      ∃ writer started lifetime, w.phase writer = .writing started lifetime token

/-- A call that could not read the cache has ended without a request. -/
structure SilentKept (w : TokenWorld) : Prop where
  sent : ∀ event ∈ w.log, ∀ call, event.issuer = some call →
    (w.phase call).requestSent = true
  refused : ∀ call, .refused call ∈ w.log → w.phase call = .finished
  silent : ∀ call, .refused call ∈ w.log → ∀ event ∈ w.log, event.issuer ≠ some call

def EventFits (before : List TokenEvent) : TokenEvent → Prop
  | .sent call lockedBy file moment =>
    (lockedBy = some call ∧ Spent file moment) ∧
      ∀ other token, .obtained other token ∈ before → token.validAt moment = false
  | .written _ replaced moment => Spent replaced moment
  | .returned _ token checkedAt lifetime =>
    (∀ micros, lifetime = some micros → expiryMargin < micros) →
      token.validAt checkedAt = true
  | .obtained _ _ | .refused _ => True

def LogFits : List TokenEvent → Prop
  | [] => True
  | event :: before => EventFits before event ∧ LogFits before

section Log

variable {log : List TokenEvent} {event : TokenEvent}

theorem LogFits.fits (h : LogFits log) (hevent : event ∈ log) :
    ∃ before, EventFits before event := by
  induction log with
  | nil => cases hevent
  | cons newest before ih =>
    obtain ⟨hnewest, hbefore⟩ := h
    rcases List.mem_cons.mp hevent with rfl | hold
    · exact ⟨before, hnewest⟩
    · exact ih hbefore hold

theorem LogFits.pairwise (h : LogFits log) : log.Pairwise NotReissued := by
  induction log with
  | nil => exact List.Pairwise.nil
  | cons newest before ih =>
    obtain ⟨hnewest, hbefore⟩ := h
    refine List.pairwise_cons.mpr ⟨?_, ih hbefore⟩
    intro earlier hearlier
    cases newest with
    | sent call lockedBy file moment =>
      cases earlier with
      | obtained other token => exact hnewest.2 other token hearlier
      | sent call lockedBy file moment => trivial
      | written call replaced moment => trivial
      | refused call => trivial
      | returned call token checkedAt lifetime => trivial
    | obtained call token => trivial
    | written call replaced moment => trivial
    | refused call => trivial
    | returned call token checkedAt lifetime => trivial

end Log

/-- From `w` to `w'` one call goes to a phase and records some events; the file, the clock
and the other calls stay. -/
structure Moves (w w' : TokenWorld) (call : ℕ) (phase : TokenPhase)
    (added : List TokenEvent) : Prop where
  clock : w'.clock = w.clock
  file : w'.file = w.file
  phases : ∀ other, w'.phase other = if other = call then phase else w.phase other
  lock : ∀ other, other ≠ call → w.fileLock = some other → w'.fileLock = some other
  log : w'.log = added ++ w.log

variable {phase : TokenPhase} {w w' : TokenWorld} {call : ℕ}

section Frames

variable {added : List TokenEvent}

theorem phase_setPhase (w : TokenWorld) (call : ℕ) (phase : TokenPhase) (other : ℕ) :
    (w.setPhase call phase).phase other = if other = call then phase else w.phase other := by
  unfold TokenWorld.phase TokenWorld.setPhase
  by_cases hsame : other = call
  · subst hsame
    simp
  · simp [hsame]

theorem moves_setPhase (w : TokenWorld) (call : ℕ) (phase : TokenPhase) :
    Moves w (w.setPhase call phase) call phase [] :=
  ⟨rfl, rfl, phase_setPhase w call phase, fun _ _ hlock => hlock, rfl⟩

theorem moves_finish (w : TokenWorld) (call : ℕ) :
    Moves w (w.finish call) call .finished [] := by
  refine ⟨rfl, rfl, phase_setPhase w call .finished, ?_, rfl⟩
  intro other hother hlock
  have hfree : w.fileLock ≠ some call := by
    intro hheld
    rw [hlock] at hheld
    exact hother (Option.some.inj hheld)
  simp only [finish, setPhase]
  rw [if_neg hfree]
  exact hlock

theorem moves_refuse (w : TokenWorld) (call : ℕ) :
    Moves w (w.refuse call) call .finished [.refused call] := by
  have hend := moves_finish (w.note (.refused call)) call
  exact ⟨hend.clock, hend.file, hend.phases, hend.lock, hend.log⟩

theorem moves_giveBack (w : TokenWorld) (call : ℕ) (token : CachedToken) (checkedAt : ℤ)
    (lifetime : Option ℤ) :
    Moves w (w.giveBack call token checkedAt lifetime) call .finished
      [.returned call token checkedAt lifetime] := by
  have hend := moves_finish
    ((w.remember call token).note (.returned call token checkedAt lifetime)) call
  exact ⟨hend.clock, hend.file, hend.phases, hend.lock, hend.log⟩

theorem Moves.phase_self (m : Moves w w' call phase added) : w'.phase call = phase := by
  rw [m.phases call, if_pos rfl]

theorem Moves.phase_other (m : Moves w w' call phase added) {other : ℕ}
    (hother : other ≠ call) : w'.phase other = w.phase other := by
  rw [m.phases other, if_neg hother]

theorem Moves.phase_cases (m : Moves w w' call phase added) (other : ℕ) :
    other = call ∧ w'.phase other = phase ∨ other ≠ call ∧ w'.phase other = w.phase other := by
  by_cases hsame : other = call
  · exact .inl ⟨hsame, hsame ▸ m.phase_self⟩
  · exact .inr ⟨hsame, m.phase_other hsame⟩

section

variable (h : CacheKept w) (m : Moves w w' call phase added)
  (hwas : (w.phase call).isWriting = false)
  (hadded : ∀ event ∈ added, ∀ c token, event ≠ .obtained c token)
include h m hwas hadded

/-- A call that does not write, before or after, keeps what is known when its new phase
knows no more than is true. -/
theorem CacheKept.move (hnow : phase.isWriting = false)
    (hholds : phase.locksFile = true → w'.fileLock = some call)
    (hjudged : ∀ cached, phase = .judging cached → readTokenCache w.file = .ok cached)
    (hspent : phase.committed = true → Spent w.file w.clock) : CacheKept w' := by
  constructor
  · intro other hother
    rcases m.phase_cases other with ⟨rfl, hafter⟩ | ⟨hsame, hafter⟩ <;> rw [hafter] at hother
    · exact hholds hother
    · exact m.lock other hsame (h.holds other hother)
  · intro other cached hother
    rw [m.file]
    rcases m.phase_cases other with ⟨rfl, hafter⟩ | ⟨_, hafter⟩ <;> rw [hafter] at hother
    · exact hjudged cached hother
    · exact h.judged other cached hother
  · intro other hother
    rw [m.file, m.clock]
    rcases m.phase_cases other with ⟨rfl, hafter⟩ | ⟨_, hafter⟩ <;> rw [hafter] at hother
    · exact hspent hother
    · exact h.spent other hother
  · intro other started lifetime issued hother
    rcases m.phase_cases other with ⟨rfl, hafter⟩ | ⟨_, hafter⟩ <;> rw [hafter] at hother
    · rw [hother] at hnow
      cases hnow
    · exact h.lasting other started lifetime issued hother
  · intro other token hobtained hvalid
    rw [m.clock] at hvalid
    rw [m.log] at hobtained
    rw [m.file]
    have hold := (List.mem_append.mp hobtained).resolve_left fun hnew =>
      hadded _ hnew other token rfl
    rcases h.live other token hold hvalid with hfile | ⟨writer, started, lifetime, hwriter⟩
    · exact .inl hfile
    · have hother : writer ≠ call := by
        rintro rfl
        rw [hwriter] at hwas
        cases hwas
      exact .inr ⟨writer, started, lifetime, (m.phase_other hother).trans hwriter⟩

theorem CacheKept.leave (hfree : phase.locksFile = false) : CacheKept w' := by
  apply h.move m hwas hadded
  · cases phase <;> first | rfl | cases hfree
  · intro hlocks
    rw [hfree] at hlocks
    cases hlocks
  · intro cached hphase
    rw [hphase] at hfree
    cases hfree
  · intro hcommitted
    rw [TokenPhase.uncommitted_of_free hfree] at hcommitted
    cases hcommitted

end

variable (h : SilentKept w) (m : Moves w w' call phase added) (hwas : w.phase call ≠ .finished)
  (hsent : (w.phase call).requestSent = true → phase.requestSent = true)
include h m hwas hsent

theorem SilentKept.move
    (hissuer : ∀ event ∈ added, ∀ c, event.issuer = some c → c = call ∧ phase.requestSent = true ∧
      .refused call ∉ added)
    (hrefused : ∀ c, .refused c ∈ added → c = call ∧ phase = .finished ∧ (w.phase call).requestSent
      = false) :
    SilentKept w' := by
  constructor
  · intro event hevent c hc
    rw [m.log] at hevent
    by_cases hsame : c = call
    · subst hsame
      rw [m.phase_self]
      rcases List.mem_append.mp hevent with hnew | hold
      · exact (hissuer event hnew c hc).2.1
      · exact hsent (h.sent event hold c hc)
    · rw [m.phase_other hsame]
      rcases List.mem_append.mp hevent with hnew | hold
      · exact absurd (hissuer event hnew c hc).1 hsame
      · exact h.sent event hold c hc
  · intro c hc
    rw [m.log] at hc
    rcases List.mem_append.mp hc with hnew | hold
    · obtain ⟨rfl, hfinished, _⟩ := hrefused c hnew
      exact m.phase_self.trans hfinished
    · have hend := h.refused c hold
      have hother : c ≠ call := by
        rintro rfl
        exact hwas hend
      exact (m.phase_other hother).trans hend
  · intro c hc event hevent hissues
    rw [m.log] at hc hevent
    rcases List.mem_append.mp hc with hnew | hold
    · obtain ⟨rfl, _, hunsent⟩ := hrefused c hnew
      rcases List.mem_append.mp hevent with hnewEvent | holdEvent
      · exact (hissuer event hnewEvent c hissues).2.2 hnew
      · rw [h.sent event holdEvent c hissues] at hunsent
        cases hunsent
    · rcases List.mem_append.mp hevent with hnewEvent | holdEvent
      · obtain ⟨rfl, _, _⟩ := hissuer event hnewEvent c hissues
        exact hwas (h.refused c hold)
      · exact h.silent c hold event holdEvent hissues

theorem SilentKept.leave
    (hquiet : ∀ event ∈ added, event.issuer = none ∧ ∀ c, event ≠ .refused c) :
    SilentKept w' := by
  apply h.move m hwas hsent
  · intro event hevent c hc
    rw [(hquiet event hevent).1] at hc
    cases hc
  · exact fun c hc => absurd rfl ((hquiet _ hc).2 c)

end Frames

structure TokenKept (w : TokenWorld) : Prop where
  cache : CacheKept w
  silent : SilentKept w
  fits : LogFits w.log

section Calls

section

variable (h : TokenKept w)
include h

theorem TokenKept.silentWait (m : Moves w w' call phase [])
    (hwas : (w.phase call).requestSent = false) :
    SilentKept w' :=
  h.silent.leave m (TokenPhase.active_of_unsent hwas)
    (fun hsent => absurd (hsent.symm.trans hwas) nofun) (List.forall_mem_nil _)

theorem TokenKept.wait (m : Moves w w' call phase []) (hwas : (w.phase call).requestSent = false)
    (hfree : phase.locksFile = false) :
    TokenKept w' := by
  refine ⟨h.cache.leave m (TokenPhase.idle_of_unsent hwas) (List.forall_mem_nil _) hfree,
    h.silentWait m hwas, ?_⟩
  rw [m.log]
  exact h.fits

theorem TokenKept.finish (hwas : (w.phase call).isWriting = false)
    (hactive : w.phase call ≠ .finished) : TokenKept (w.finish call) := by
  have m := moves_finish w call
  exact ⟨h.cache.leave m hwas (List.forall_mem_nil _) rfl,
    h.silent.leave m hactive (fun _ => rfl) (List.forall_mem_nil _), h.fits⟩

/-- A call that could not read the file ends before it has requested anything. -/
theorem TokenKept.refuse (hwas : (w.phase call).requestSent = false) :
    TokenKept (w.refuse call) := by
  have m := moves_refuse w call
  refine ⟨h.cache.leave m (TokenPhase.idle_of_unsent hwas)
    (List.forall_mem_singleton.mpr nofun) rfl, ?_, ?_⟩
  · apply h.silent.move m (TokenPhase.active_of_unsent hwas) (fun _ => rfl)
    · exact List.forall_mem_singleton.mpr nofun
    · intro c hc
      have hsame := List.mem_singleton.mp hc
      exact ⟨TokenEvent.refused.inj hsame, rfl, hwas⟩
  · rw [m.log]
    exact ⟨trivial, h.fits⟩

theorem TokenKept.giveBack {token : CachedToken} {checkedAt : ℤ}
    (hwas : (w.phase call).isWriting = false) (hactive : w.phase call ≠ .finished)
    (hvalid : token.validAt checkedAt = true) :
    TokenKept (w.giveBack call token checkedAt none) := by
  have m := moves_giveBack w call token checkedAt none
  refine ⟨h.cache.leave m hwas (List.forall_mem_singleton.mpr nofun) rfl,
    h.silent.leave m hactive (fun _ => rfl) (List.forall_mem_singleton.mpr ⟨rfl, nofun⟩), ?_⟩
  rw [m.log]
  exact ⟨fun _ => hvalid, h.fits⟩

theorem TokenKept.pass (micros : ℕ) :
    TokenKept { w with clock := w.clock + micros } := by
  have hle : w.clock ≤ w.clock + micros := by omega
  refine ⟨⟨h.cache.holds, h.cache.judged, ?_, h.cache.lasting, ?_⟩, ?_, h.fits⟩
  · intro c hcommitted
    exact (h.cache.spent c hcommitted).mono hle
  · intro c token hobtained hvalid
    exact h.cache.live c token hobtained (CachedToken.validAt_mono hle hvalid)
  · exact ⟨h.silent.sent, h.silent.refused, h.silent.silent⟩

theorem TokenKept.begin (provider : ℕ) (hphase : w.phase call = .unstarted) :
    TokenKept (w.begin call provider) := by
  have m : Moves w { w with calls := Function.update w.calls call ⟨provider, .waiting⟩ } call
      .waiting [] := by
    refine ⟨rfl, rfl, ?_, fun _ _ hlock => hlock, rfl⟩
    intro other
    unfold phase
    by_cases hsame : other = call
    · subst hsame
      simp
    · simp [hsame]
  have hwaiting := h.wait m (by rw [hphase]; rfl) rfl
  unfold TokenWorld.begin
  dsimp only
  split
  · exact hwaiting
  · split
    next hvalid =>
      apply hwaiting.giveBack _ _ hvalid
      · rw [m.phase_self]
        rfl
      · rw [m.phase_self]
        nofun
    · exact hwaiting

theorem TokenKept.look {now : ℤ} (readable : Bool) (hphase : w.phase call = .looking now) :
    TokenKept (w.look call now readable) := by
  have hunsent : (w.phase call).requestSent = false := by rw [hphase]; rfl
  unfold TokenWorld.look
  split
  · exact h.refuse hunsent
  · exact h.refuse hunsent
  · exact h.wait (moves_setPhase w call .queued) hunsent rfl
  · split
    next hvalid =>
      exact h.giveBack (TokenPhase.idle_of_unsent hunsent)
        (TokenPhase.active_of_unsent hunsent) hvalid
    · exact h.wait (moves_setPhase w call .queued) hunsent rfl

theorem TokenKept.lockFile (hphase : w.phase call = .queued) (hlock : w.fileLock = none) :
    TokenKept { w.setPhase call .locked with fileLock := some call } := by
  have m : Moves w { w.setPhase call .locked with fileLock := some call } call .locked [] := by
    refine ⟨rfl, rfl, phase_setPhase w call .locked, ?_, rfl⟩
    intro other _ hheld
    rw [hlock] at hheld
    cases hheld
  have hunsent : (w.phase call).requestSent = false := by rw [hphase]; rfl
  exact ⟨h.cache.move m (TokenPhase.idle_of_unsent hunsent) (List.forall_mem_nil _) rfl
    (fun _ => rfl) nofun nofun, h.silentWait m hunsent, h.fits⟩

theorem TokenKept.underLock (hlocks : (w.phase call).locksFile = true)
    (hunsent : (w.phase call).requestSent = false) (hphase : phase.isWriting = false)
    (hjudged : ∀ cached, phase = .judging cached → readTokenCache w.file = .ok cached)
    (hspent : phase.committed = true → Spent w.file w.clock) :
    TokenKept (w.setPhase call phase) := by
  have m := moves_setPhase w call phase
  exact ⟨h.cache.move m (TokenPhase.idle_of_unsent hunsent) (List.forall_mem_nil _) hphase
    (fun _ => h.cache.holds call hlocks) hjudged hspent, h.silentWait m hunsent, h.fits⟩

theorem TokenKept.reread (readable : Bool) (hphase : w.phase call = .locked) :
    TokenKept (w.reread call readable) := by
  have hunsent : (w.phase call).requestSent = false := by rw [hphase]; rfl
  unfold TokenWorld.reread
  split
  · exact h.refuse hunsent
  · exact h.refuse hunsent
  next cached hread =>
    apply h.underLock _ hunsent rfl
    · intro found hfound
      obtain rfl := TokenPhase.judging.inj hfound
      exact hread
    · nofun
    · rw [hphase]
      rfl

theorem TokenKept.judge {cached : Option CachedToken} (hphase : w.phase call = .judging cached) :
    TokenKept (w.judge call cached) := by
  have hread := h.cache.judged call cached hphase
  have hlocks : (w.phase call).locksFile = true := by rw [hphase]; rfl
  have hunsent : (w.phase call).requestSent = false := by rw [hphase]; rfl
  unfold TokenWorld.judge
  split
  · exact h.underLock hlocks hunsent rfl nofun fun _ => .inl (eq_none_of_read hread)
  next token =>
    split
    next hvalid =>
      exact h.giveBack (TokenPhase.idle_of_unsent hunsent)
        (TokenPhase.active_of_unsent hunsent) hvalid
    next hexpired =>
      exact h.underLock hlocks hunsent rfl nofun fun _ =>
        .inr ⟨token, hread, Bool.eq_false_iff.mpr hexpired⟩

end

variable {other : ℕ} {numericExpiry : Bool} {started : ℤ}

theorem CacheKept.alone (h : CacheKept w) (hlocks : (w.phase call).locksFile = true)
    (hother : (w.phase other).locksFile = true) :
    other = call := by
  have hself := h.holds call hlocks
  rw [h.holds other hother] at hself
  exact Option.some.inj hself

theorem CacheKept.live_of_spent (h : CacheKept w) (hcommitted : (w.phase call).committed = true)
    (hlocks : (w.phase call).locksFile = true) {token : CachedToken}
    (hobtained : .obtained other token ∈ w.log) (hvalid : token.validAt w.clock = true) :
    ∃ started lifetime, w.phase call = .writing started lifetime token := by
  rcases h.live other token hobtained hvalid with ⟨found, hread, hexpiry⟩ | hwriter
  · exfalso
    have hfound : found.validAt w.clock = true := by
      rw [CachedToken.validAt, hexpiry]
      exact hvalid
    rcases h.spent call hcommitted with hnone | ⟨cached, hcached, hexpired⟩
    · rw [hnone] at hread
      cases hread
    · rw [hcached] at hread
      cases Except.ok.inj hread
      rw [hexpired] at hfound
      cases hfound
  · obtain ⟨writer, started, lifetime, hwriter⟩ := hwriter
    have hsame : writer = call := h.alone hlocks (by rw [hwriter]; rfl)
    rw [← hsame]
    exact ⟨started, lifetime, hwriter⟩

theorem TokenKept.request (h : TokenKept w) (hphase : w.phase call = .issuing numericExpiry) :
    TokenKept (w.request call numericExpiry) := by
  have hset := moves_setPhase (w.note (.sent call w.fileLock w.file w.clock)) call
    (.requested w.clock numericExpiry)
  have m : Moves w (w.request call numericExpiry) call (.requested w.clock numericExpiry)
      [.sent call w.fileLock w.file w.clock] :=
    ⟨hset.clock, hset.file, hset.phases, hset.lock, hset.log⟩
  have hlocks : (w.phase call).locksFile = true := by rw [hphase]; rfl
  have hcommitted : (w.phase call).committed = true := by rw [hphase]; rfl
  have hheld := h.cache.holds call hlocks
  have hspent := h.cache.spent call hcommitted
  refine ⟨?_, ?_, ?_⟩
  · apply h.cache.move m _ (List.forall_mem_singleton.mpr nofun) rfl (fun _ => hheld) nofun
      (fun _ => hspent)
    rw [hphase]
    rfl
  · apply h.silent.move m
    · rw [hphase]
      nofun
    · exact fun _ => rfl
    · intro event hevent c hc
      obtain rfl := List.mem_singleton.mp hevent
      exact ⟨(Option.some.inj hc).symm, rfl, by simp⟩
    · intro c hc
      cases List.mem_singleton.mp hc
  · rw [m.log]
    refine ⟨⟨⟨hheld, hspent⟩, ?_⟩, h.fits⟩
    intro other token hobtained
    cases hvalid : token.validAt w.clock with
    | false => rfl
    | true =>
      obtain ⟨started, lifetime, hwriting⟩ :=
        h.cache.live_of_spent hcommitted hlocks hobtained hvalid
      rw [hphase] at hwriting
      cases hwriting

theorem TokenKept.grant (h : TokenKept w) {accessToken : String} {expiresIn : Option ℤ}
    (hphase : w.phase call = .requested started numericExpiry) :
    TokenKept (w.respond call started numericExpiry (.granted accessToken expiresIn)) := by
  have hset := moves_setPhase
    (w.note (.obtained call (issuedToken started numericExpiry accessToken expiresIn))) call
    (.writing started (expiresIn.getD defaultExpiresIn * 1000000)
      (issuedToken started numericExpiry accessToken expiresIn))
  have m : Moves w
      (w.respond call started numericExpiry (.granted accessToken expiresIn)) call
      (.writing started (expiresIn.getD defaultExpiresIn * 1000000)
        (issuedToken started numericExpiry accessToken expiresIn))
      [.obtained call (issuedToken started numericExpiry accessToken expiresIn)] :=
    ⟨hset.clock, hset.file, hset.phases, hset.lock, hset.log⟩
  have hlocks : (w.phase call).locksFile = true := by rw [hphase]; rfl
  have hcommitted : (w.phase call).committed = true := by rw [hphase]; rfl
  refine ⟨⟨?_, ?_, ?_, ?_, ?_⟩, ?_, ?_⟩
  · intro other hother
    rcases m.phase_cases other with ⟨rfl, _⟩ | ⟨_, hafter⟩
    · exact h.cache.holds other hlocks
    · rw [hafter] at hother
      exact h.cache.holds other hother
  · intro other cached hother
    rcases m.phase_cases other with ⟨_, hafter⟩ | ⟨_, hafter⟩ <;> rw [hafter] at hother
    · cases hother
    · exact h.cache.judged other cached hother
  · intro _ _
    exact h.cache.spent call hcommitted
  · intro other start lifetime issued hother
    rcases m.phase_cases other with ⟨_, hafter⟩ | ⟨_, hafter⟩ <;> rw [hafter] at hother
    · obtain ⟨rfl, rfl, rfl⟩ := TokenPhase.writing.inj hother
      exact issuedToken_validAt
    · exact h.cache.lasting other start lifetime issued hother
  · intro other token hobtained hvalid
    rw [m.log] at hobtained
    rcases List.mem_cons.mp hobtained with hnew | hold
    · obtain ⟨_, rfl⟩ := TokenEvent.obtained.inj hnew
      exact .inr ⟨call, _, _, m.phase_self⟩
    · obtain ⟨start, lifetime, hwriting⟩ :=
        h.cache.live_of_spent hcommitted hlocks hold hvalid
      rw [hphase] at hwriting
      cases hwriting
  · apply h.silent.leave m _ (fun _ => rfl) (List.forall_mem_singleton.mpr ⟨rfl, nofun⟩)
    rw [hphase]
    nofun
  · rw [m.log]
    exact ⟨trivial, h.fits⟩

theorem TokenKept.respond (h : TokenKept w) (answer : IssueAnswer)
    (hphase : w.phase call = .requested started numericExpiry) :
    TokenKept (w.respond call started numericExpiry answer) := by
  have hidle : (w.phase call).isWriting = false := by rw [hphase]; rfl
  have hactive : w.phase call ≠ .finished := by rw [hphase]; nofun
  cases answer with
  | failed => exact h.finish hidle hactive
  | rejected => exact h.finish hidle hactive
  | notJson => exact h.finish hidle hactive
  | withoutToken => exact h.finish hidle hactive
  | granted accessToken expiresIn => exact h.grant hphase

/-- The write of an issued token keeps the file and the calls in step. -/
theorem TokenKept.write (h : TokenKept w) {started lifetime : ℤ} {issued : CachedToken}
    (hphase : w.phase call = .writing started lifetime issued) :
    TokenKept (w.write call started lifetime issued) := by
  have hlocks : (w.phase call).locksFile = true := by rw [hphase]; rfl
  have hcommitted : (w.phase call).committed = true := by rw [hphase]; rfl
  have m := moves_giveBack
    { w.note (.written call w.file w.clock) with file := some (writeTokenCache issued) }
    call issued started (some lifetime)
  have hothers : ∀ other, other ≠ call → (w.phase other).locksFile = false := by
    intro other hother
    cases hheld : (w.phase other).locksFile with
    | false => rfl
    | true => exact absurd (h.cache.alone hlocks hheld) hother
  have hfree : ∀ other, ((w.write call started lifetime issued).phase other).locksFile =
      false := by
    intro other
    rcases m.phase_cases other with ⟨_, hafter⟩ | ⟨hsame, hafter⟩
    · exact congrArg TokenPhase.locksFile hafter
    · exact (congrArg TokenPhase.locksFile hafter).trans (hothers other hsame)
  have hkept : CacheKept (w.write call started lifetime issued) := by
    constructor
    · intro other hother
      rw [hfree other] at hother
      cases hother
    · intro other cached hother
      have hnone := hfree other
      rw [hother] at hnone
      cases hnone
    · intro other hother
      rw [TokenPhase.uncommitted_of_free (hfree other)] at hother
      cases hother
    · intro other start long token hother
      have hnone := hfree other
      rw [hother] at hnone
      cases hnone
    · intro other token hobtained hvalid
      have hold : TokenEvent.obtained other token ∈ w.log := by
        rcases List.mem_cons.mp hobtained with hreturned | hrest
        · cases hreturned
        · rcases List.mem_cons.mp hrest with hwritten | hold
          · cases hwritten
          · exact hold
      obtain ⟨start, long, hwriting⟩ :=
        h.cache.live_of_spent hcommitted hlocks hold hvalid
      rw [hphase] at hwriting
      obtain ⟨_, _, rfl⟩ := TokenPhase.writing.inj hwriting
      obtain ⟨numeric, hread⟩ := read_writeTokenCache issued
      exact .inl ⟨_, hread, rfl⟩
  have hactive : w.phase call ≠ .finished := by rw [hphase]; nofun
  refine ⟨hkept, ?_, ?_⟩
  · have hwritten : Moves w
        { w.note (.written call w.file w.clock) with file := w.file } call (w.phase call)
        [.written call w.file w.clock] := by
      refine ⟨rfl, rfl, ?_, fun _ _ hlock => hlock, rfl⟩
      intro other
      by_cases hsame : other = call
      · subst hsame
        rw [if_pos rfl]
        rfl
      · rw [if_neg hsame]
        rfl
    have hnoted : SilentKept (w.note (.written call w.file w.clock)) := by
      apply h.silent.move hwritten hactive
      · exact fun hsent => hsent
      · intro event hevent c hc
        obtain rfl := List.mem_singleton.mp hevent
        refine ⟨(Option.some.inj hc).symm, by rw [hphase]; rfl, ?_⟩
        intro hrefused
        cases List.mem_singleton.mp hrefused
      · intro c hc
        cases List.mem_singleton.mp hc
    have hreplaced : SilentKept
        { w.note (.written call w.file w.clock) with
          file := some (writeTokenCache issued) } :=
      ⟨hnoted.sent, hnoted.refused, hnoted.silent⟩
    exact hreplaced.leave m hactive (fun _ => rfl) (List.forall_mem_singleton.mpr ⟨rfl, nofun⟩)
  · refine ⟨?_, h.cache.spent call hcommitted, h.fits⟩
    intro hlong
    exact h.cache.lasting call started lifetime issued hphase (hlong lifetime rfl)

/-- A call whose write lands keeps the token that it issued. -/
theorem TokenKept.step {action : TokenAction} (h : TokenKept w) (hok : WritesLand w action)
    (hstep : w.step action = some w') : TokenKept w' := by
  cases action with
  | pass micros =>
    cases hstep
    exact h.pass micros
  | begin call provider =>
    obtain ⟨hphase, rfl⟩ := of_guard hstep
    exact h.begin provider hphase
  | enter call =>
    obtain ⟨hallowed, rfl⟩ := of_guard hstep
    have hset := moves_setPhase w call (.looking w.clock)
    have m : Moves w
        { w.setPhase call (.looking w.clock) with
          providers := Function.update w.providers (w.calls call).provider
            { w.providers (w.calls call).provider with lock := some call } }
        call (.looking w.clock) [] :=
      ⟨hset.clock, hset.file, hset.phases, hset.lock, hset.log⟩
    apply h.wait m
    · rw [hallowed.1]
      rfl
    · rfl
  | look call readable =>
    simp only [TokenWorld.step] at hstep
    split at hstep
    next now hphase =>
      cases hstep
      exact h.look readable hphase
    · cases hstep
  | lockFile call =>
    obtain ⟨hallowed, rfl⟩ := of_guard hstep
    exact h.lockFile hallowed.1 hallowed.2
  | reread call readable =>
    obtain ⟨hphase, rfl⟩ := of_guard hstep
    exact h.reread readable hphase
  | judge call =>
    simp only [TokenWorld.step] at hstep
    split at hstep
    next cached hphase =>
      cases hstep
      exact h.judge hphase
    · cases hstep
  | request call =>
    simp only [TokenWorld.step] at hstep
    split at hstep
    next numericExpiry hphase =>
      cases hstep
      exact h.request hphase
    · cases hstep
  | respond call answer =>
    simp only [TokenWorld.step] at hstep
    split at hstep
    next started numericExpiry hphase =>
      cases hstep
      exact h.respond answer hphase
    · cases hstep
  | write call =>
    simp only [TokenWorld.step] at hstep
    split at hstep
    next started lifetime issued hphase =>
      cases hstep
      exact h.write hphase
    · cases hstep
  | abandon call =>
    simp only [TokenWorld.step] at hstep
    split at hstep
    · cases hstep
    · cases hstep
    next hstarted hactive =>
      cases hstep
      apply h.finish _ hactive
      cases hphase : w.phase call with
      | writing started lifetime issued =>
        simp only [WritesLand, hphase] at hok
      | _ => rfl

theorem TokenKept.of_start (hstart : TokenStart w) : TokenKept w := by
  obtain ⟨_, _, hphases, hlog⟩ := hstart
  refine ⟨⟨?_, ?_, ?_, ?_, ?_⟩, ⟨?_, ?_, ?_⟩, ?_⟩
  · intro c hc
    rw [hphases c] at hc
    cases hc
  · intro c cached hc
    rw [hphases c] at hc
    cases hc
  · intro c hc
    rw [hphases c] at hc
    cases hc
  · intro c started lifetime issued hc
    rw [hphases c] at hc
    cases hc
  · intro c token hc
    rw [hlog] at hc
    cases hc
  · intro event hevent
    rw [hlog] at hevent
    cases hevent
  · intro c hc
    rw [hlog] at hc
    cases hc
  · intro c hc
    rw [hlog] at hc
    cases hc
  · rw [hlog]
    trivial

theorem TokenKept.sound (h : TokenKept w) : TokenSound w := by
  refine ⟨?_, h.fits.pairwise, ?_, ?_, h.silent.silent⟩
  · intro c lockedBy file moment hevent
    obtain ⟨before, hfits⟩ := h.fits.fits hevent
    exact hfits.1
  · intro c replaced moment hevent
    obtain ⟨before, hfits⟩ := h.fits.fits hevent
    exact hfits
  · intro c token checkedAt lifetime hevent
    obtain ⟨before, hfits⟩ := h.fits.fits hevent
    exact hfits

end Calls

/-- As long as every token that is obtained reaches the file, tokens are requested one at a
time, each after the one before has expired. -/
theorem tokens_are_issued_once {w : TokenWorld}
    (h : ReachableVia TokenStart TokenWorld.step WritesLand w) : TokenSound w := by
  have hkept : TokenKept w := by
    apply invariant (fun _ hstart => TokenKept.of_start hstart) _ h
    intro _ _ _ hkept hok hstep
    exact hkept.step hok hstep
  exact hkept.sound

def noCache : TokenWorld where
  clock := 0
  file := none
  fileLock := none
  providers := fun _ => ⟨none, none⟩
  calls := fun _ => ⟨0, .unstarted⟩
  log := []

theorem noCache_starts : TokenStart noCache :=
  ⟨rfl, fun _ => rfl, fun _ => rfl, rfl⟩

def issueSteps (call provider : ℕ) : List TokenAction :=
  [.begin call provider, .enter call, .look call true, .lockFile call, .reread call true,
    .judge call, .request call, .respond call (.granted "token" (some 86400))]

/-- One process has a token issued while another waits for the file lock; the other finds it
in the file. A third one starts after the token has expired. -/
def sharedToken : List TokenAction :=
  [.begin 1 1, .enter 1, .look 1 true] ++ issueSteps 0 0 ++ [.write 0] ++
    [.lockFile 1, .reread 1 true, .judge 1, .pass (86400 * 1000000)] ++
    issueSteps 2 0 ++ [.write 2]

/-- Two callers share the token that one of them has obtained. -/
theorem tokens_are_issued_once_of_shared :
    ∃ w, run TokenWorld.step noCache sharedToken = some w ∧ w.log.length = 9 ∧
      TokenSound w := by
  obtain ⟨w, hw, hlog⟩ : ∃ w, run step noCache sharedToken = some w ∧ w.log.length = 9 :=
    exists_run (by decide +kernel)
  have halong : Along step WritesLand noCache sharedToken := by decide +kernel
  have hreached := (ReachableVia.start noCache_starts).run halong hw
  exact ⟨w, hw, hlog, tokens_are_issued_once hreached⟩

def dayToken : CachedToken := issuedToken 0 false "token" (some 86400)

/-- The write of the first token fails, and the next call has another one issued. -/
def failedWrite : List TokenAction :=
  issueSteps 0 0 ++ [.abandon 0] ++ issueSteps 1 0

/-- A token whose write has failed is issued again while it is valid. -/
theorem failed_write_reissues :
    ∃ w, Reachable TokenStart TokenWorld.step w ∧ w.clock = 0 ∧
      TokenEvent.sent 1 (some 1) none 0 ∈ w.log ∧ .obtained 0 dayToken ∈ w.log ∧
      dayToken.validAt w.clock = true ∧ ¬ TokenSound w := by
  obtain ⟨w, hw, hclock, hlog⟩ :
      ∃ w, run step noCache failedWrite = some w ∧ w.clock = 0 ∧
        w.log = [.obtained 1 dayToken, .sent 1 (some 1) none 0, .obtained 0 dayToken, .sent 0 (some
          0) none 0] :=
    exists_run (by decide +kernel)
  have hvalid : dayToken.validAt w.clock = true := by
    rw [hclock]
    decide +kernel
  refine ⟨w, reachable_of_run noCache_starts hw, hclock, ?_, ?_, hvalid, ?_⟩
  · rw [hlog]
    exact List.mem_cons_of_mem _ List.mem_cons_self
  · rw [hlog]
    exact List.mem_cons_of_mem _ (List.mem_cons_of_mem _ List.mem_cons_self)
  · intro hsound
    have hpairs := hsound.not_reissued
    rw [hlog] at hpairs
    have hpair : dayToken.validAt 0 = false :=
      (List.pairwise_cons.mp (List.pairwise_cons.mp hpairs).2).1 _ List.mem_cons_self
    rw [hclock, hpair] at hvalid
    cases hvalid

end KAssetTrader.NhPlug
