import KAssetTrader.Devices.Auth

/-!
What becomes of tokens. A refresh token can be redeemed while the row of its device
holds its hash, so at most one can and no more than once, and a revoked one never
again. An access token only names the row: a sign-in clears the mark of a revoked
row, and then every access token from before the revocation that has not expired
is accepted once more. It is not when such a sign-in waits until those have expired.
-/

namespace KAssetTrader.Devices

open Unicode (strip)
open Checked Transition

variable {s t : AuthState} {draw : Draw} {settings : Settings} {deviceId deviceName : String}
  {user : User} {userId : UserId}

variable {row : DeviceSession} {id : SessionId}

/-- What an issue does: it writes one row and adds its two tokens. -/
structure Issues (s t : AuthState) (draw : Draw) (id : SessionId) (row : DeviceSession)
    (access : Claims) : Prop where
  sessions : t.sessions = s.sessions.set id row
  issued : t.issued = .refresh row.refreshTokenHash :: .access access row.refreshTokenHash
    :: s.issued
  clock : t.clock = s.clock
  decoded : t.decoded = s.decoded
  redeemed : t.redeemed = s.redeemed
  revoked : t.revoked = s.revoked
  refreshSession : row.refreshTokenHash.sessionId = id
  accessSession : access.sessionId = id
  refreshOwner : row.refreshTokenHash.uid = row.ownerUserId
  accessOwner : access.uid = row.ownerUserId
  refreshDevice : row.refreshTokenHash.deviceId = row.deviceId
  accessDevice : access.deviceId = row.deviceId
  refreshJti : row.refreshTokenHash.jti = draw.jti
  accessJti : access.jti = draw.jti

theorem findSession_some (h : s.findSession userId deviceId = some (id, row)) :
    s.sessions.get? id = some row ∧ row.ownerUserId = userId ∧ row.deviceId = deviceId := by
  have hfound := List.find?_some h
  simp only [decide_eq_true_eq] at hfound
  exact ⟨s.sessions.get?_eq_some.mpr (List.mem_of_find?_eq_some h), hfound⟩

theorem findSession_none (h : s.findSession userId deviceId = none)
    (hget : s.sessions.get? id = some row) :
    ¬ (row.ownerUserId = userId ∧ row.deviceId = deviceId) := by
  have hnot := List.find?_eq_none.mp h _ (s.sessions.get?_eq_some.mp hget)
  simpa using hnot

theorem issue_ok {record : Option (SessionId × DeviceSession)}
    (h : s.issue settings userId user deviceId deviceName record draw = .ok t) :
    ∃ id row access, Issues s t draw id row access ∧ row.ownerUserId = userId ∧
      row.deviceId = strip deviceId ∧
      ((∃ old, (record = some (id, old) ∨ record = none ∧
          s.findSession userId (strip deviceId) = some (id, old)) ∧
          old.ownerUserId = userId ∧ old.deviceId = strip deviceId) ∨
        record = none ∧ s.findSession userId (strip deviceId) = none ∧
          s.sessions.get? id = none) := by
  obtain ⟨-, h⟩ := raiseIf_bind_ok.mp h
  obtain ⟨hfresh, h⟩ := raiseIf_bind_ok.mp h
  obtain ⟨howner, h⟩ := raiseIf_bind_ok.mp h
  cases h
  refine ⟨_, _, _, ⟨rfl, rfl, rfl, rfl, rfl, rfl, rfl, rfl, rfl, rfl, rfl, rfl, rfl, rfl⟩, rfl, rfl,
    ?_⟩
  cases record with
  | some entry =>
    left
    refine ⟨entry.2, .inl rfl, ?_⟩
    simpa [not_or] using howner
  | none =>
    cases hfind : s.findSession userId (strip deviceId) with
    | some entry =>
      left
      exact ⟨entry.2, .inr ⟨rfl, rfl⟩, (findSession_some hfind).2⟩
    | none =>
      right
      refine ⟨rfl, rfl, ?_⟩
      simpa [hfind] using hfresh

/-- A request with the token can be accepted now: the token verifies or has been
decoded, its user is active, and the row lets it in. -/
def AuthState.Accepts (s : AuthState) (token : Token) : Prop :=
  (s.Verifies token ∨ token ∈ s.decoded) ∧
    ∃ user row, s.activeUser token.claims.uid token.claims.sub = some user ∧
      s.namedSession token.claims = some row ∧
      match token with
      | .refresh claims => row.Redeems claims s.clock
      | .access _ _ => row.revokedAt = none ∧ s.clock < row.expiresAt

structure AuthState.Sound (s : AuthState) : Prop where
  /-- At most one refresh token of a device can be redeemed. -/
  single : ∀ first second, s.Accepts (.refresh first) → s.Accepts (.refresh second) →
    first.uid = second.uid → first.deviceId = second.deviceId → first = second
  /-- A redeemed token can not be redeemed again. -/
  once : ∀ claims ∈ s.redeemed, ¬ s.Accepts (.refresh claims)
  /-- A token from before a revocation of its session is not accepted. -/
  revoked : ∀ token ∈ s.revoked, ¬ s.Accepts token

/-- Every access token of the session has expired, and no request is between its
decoding and its reading of the row. -/
def AuthState.AccessExpired (s : AuthState) (id : SessionId) : Prop :=
  ∀ token ∈ s.issued, token.claims.sessionId = id →
    match token with
    | .refresh _ => True
    | .access claims _ => claims.exp ≤ s.clock ∧ token ∉ s.decoded

instance (s : AuthState) (id : SessionId) : Decidable (s.AccessExpired id) :=
  have (token : Token) : Decidable (match token with
      | .refresh _ => True
      | .access claims _ => claims.exp ≤ s.clock ∧ token ∉ s.decoded) :=
    match token with
    | .refresh _ => .isTrue trivial
    | .access _ _ => inferInstanceAs (Decidable (_ ∧ _))
  inferInstanceAs (Decidable (∀ _ ∈ _, _ → _))

/-- A sign-in does not reuse a revoked row before its access tokens have expired. -/
def AuthState.WaitsFor (s : AuthState) (userId : UserId) (deviceId : String) : Prop :=
  ∀ id row, s.findSession userId (strip deviceId) = some (id, row) → row.revokedAt ≠ none →
    s.AccessExpired id

instance (s : AuthState) (userId : UserId) (deviceId : String) :
    Decidable (s.WaitsFor userId deviceId) :=
  decidable_of_iff (∀ entry ∈ s.findSession userId (strip deviceId), entry.2.revokedAt ≠ none →
    s.AccessExpired entry.1) (by simp [AuthState.WaitsFor, Prod.forall])

def ReissuesAfterExpiry (s : AuthState) : Action → Prop
  | .login userId _ deviceId _ _ => s.WaitsFor userId deviceId
  | .googleLogin userId _ deviceId _ _ => s.WaitsFor userId deviceId
  | _ => True

instance (s : AuthState) : (action : Action) → Decidable (ReissuesAfterExpiry s action)
  | .login .. => inferInstanceAs (Decidable (AuthState.WaitsFor ..))
  | .googleLogin .. => inferInstanceAs (Decidable (AuthState.WaitsFor ..))
  | .tick .. => .isTrue trivial
  | .setUser .. => .isTrue trivial
  | .decode .. => .isTrue trivial
  | .refresh .. => .isTrue trivial
  | .authenticate .. => .isTrue trivial
  | .revoke .. => .isTrue trivial

section Invariant

structure AuthState.Kept (s : AuthState) : Prop where
  unique : ∀ id id' row row', s.sessions.get? id = some row → s.sessions.get? id' = some row' →
    row.ownerUserId = row'.ownerUserId → row.deviceId = row'.deviceId → id = id'
  session : ∀ token ∈ s.issued, ∃ row, s.sessions.get? token.claims.sessionId = some row
  redeemedIssued : ∀ claims ∈ s.redeemed, Token.refresh claims ∈ s.issued
  revokedIssued : ∀ token ∈ s.revoked, token ∈ s.issued
  decodedIssued : ∀ token ∈ s.decoded, token ∈ s.issued
  redeemed : ∀ claims ∈ s.redeemed, ∀ row, s.sessions.get? claims.sessionId = some row →
    row.refreshTokenHash ≠ claims
  revoked : ∀ token ∈ s.revoked, ∀ row, s.sessions.get? token.claims.sessionId = some row →
    row.revokedAt = none →
    match token with
    | .refresh claims => row.refreshTokenHash ≠ claims
    | .access claims _ => claims.exp ≤ s.clock ∧ token ∉ s.decoded

variable {access : Claims}

theorem namedSession_some {claims : Claims} (h : s.namedSession claims = some row) :
    s.sessions.get? claims.sessionId = some row ∧ row.ownerUserId = claims.uid ∧
      row.deviceId = claims.deviceId := by
  obtain ⟨hget, hnamed⟩ := Option.filter_eq_some_iff.mp h
  exact ⟨hget, of_decide_eq_true hnamed⟩

theorem AuthState.Kept.sound (h : s.Kept) : s.Sound where
  single first second hfirst hsecond huid hdevice := by
    obtain ⟨-, -, row, -, hnamed, hredeems⟩ := hfirst
    obtain ⟨-, -, row', -, hnamed', hredeems'⟩ := hsecond
    obtain ⟨hget, howner, hown⟩ := namedSession_some hnamed
    obtain ⟨hget', howner', hown'⟩ := namedSession_some hnamed'
    have hid := h.unique _ _ row row' hget hget'
      (howner.trans (huid.trans howner'.symm)) (hown.trans (hdevice.trans hown'.symm))
    rw [hid] at hget
    cases hget.symm.trans hget'
    exact hredeems.2.2.1.symm.trans hredeems'.2.2.1
  once claims hmem haccepts := by
    obtain ⟨-, -, row, -, hnamed, hredeems⟩ := haccepts
    exact h.redeemed claims hmem row (namedSession_some hnamed).1 hredeems.2.2.1
  revoked token hmem haccepts := by
    obtain ⟨hverifies, -, row, -, hnamed, hrow⟩ := haccepts
    have hrevoked := h.revoked token hmem row (namedSession_some hnamed).1
    cases token with
    | refresh claims => exact hrevoked hrow.1 hrow.2.2.1
    | access claims sid =>
      obtain ⟨hexpired, hdecoded⟩ := hrevoked hrow.1
      rcases hverifies with ⟨-, hlive⟩ | hpending
      · exact absurd hlive (not_lt.mpr hexpired)
      · exact hdecoded hpending

structure IssueTarget (s : AuthState) (id : SessionId) (row : DeviceSession) : Prop where
  unique : ∀ id' row', s.sessions.get? id' = some row' → row'.ownerUserId = row.ownerUserId →
    row'.deviceId = row.deviceId → id' = id
  expired : ∀ old, s.sessions.get? id = some old → old.revokedAt ≠ none → s.AccessExpired id

/-- Tokens issued for a session keep the sessions and the tokens in step. -/
theorem Issues.kept (h : Issues s t draw id row access) (hs : s.Kept) (hfresh : s.Fresh draw)
    (htarget : IssueTarget s id row) : t.Kept := by
  have hget (key : SessionId) : t.sessions.get? key =
      if key = id then some row else s.sessions.get? key := by
    rw [h.sessions]
    exact Dict.get?_set s.sessions
  have hnew (claims : Claims) (hold : Token.refresh claims ∈ s.issued) :
      row.refreshTokenHash ≠ claims := by
    rintro rfl
    exact hfresh.2.2.2 _ hold h.refreshJti
  constructor
  · intro first second row₁ row₂ hfirst hsecond howner hdevice
    rw [hget] at hfirst hsecond
    split at hfirst
    next hfirstId =>
      cases hfirst
      split at hsecond
      next hsecondId => exact hfirstId.trans hsecondId.symm
      · exact hfirstId.trans
          (htarget.unique second row₂ hsecond howner.symm hdevice.symm).symm
    · split at hsecond
      next hsecondId =>
        cases hsecond
        exact (htarget.unique first row₁ hfirst howner hdevice).trans hsecondId.symm
      · exact hs.unique first second row₁ row₂ hfirst hsecond howner hdevice
  · intro token hmem
    rw [hget]
    split
    · exact ⟨row, rfl⟩
    next hother =>
      rw [h.issued] at hmem
      rcases List.mem_cons.mp hmem with rfl | hmem
      · exact absurd h.refreshSession hother
      · rcases List.mem_cons.mp hmem with rfl | hmem
        · exact absurd h.accessSession hother
        · exact hs.session token hmem
  · intro claims hmem
    rw [h.redeemed] at hmem
    rw [h.issued]
    exact List.mem_cons_of_mem _ (List.mem_cons_of_mem _ (hs.redeemedIssued claims hmem))
  · intro token hmem
    rw [h.revoked] at hmem
    rw [h.issued]
    exact List.mem_cons_of_mem _ (List.mem_cons_of_mem _ (hs.revokedIssued token hmem))
  · intro token hmem
    rw [h.decoded] at hmem
    rw [h.issued]
    exact List.mem_cons_of_mem _ (List.mem_cons_of_mem _ (hs.decodedIssued token hmem))
  · intro claims hmem after hafter
    rw [h.redeemed] at hmem
    rw [hget] at hafter
    split at hafter
    · cases hafter
      exact hnew claims (hs.redeemedIssued claims hmem)
    · exact hs.redeemed claims hmem after hafter
  · intro token hmem after hafter hunrevoked
    rw [h.revoked] at hmem
    rw [hget] at hafter
    have hissued := hs.revokedIssued token hmem
    split at hafter
    next hid =>
      cases hafter
      cases token with
      | refresh claims => exact hnew claims hissued
      | access claims sid =>
        obtain ⟨old, hold⟩ := hs.session _ hissued
        rw [h.clock, h.decoded]
        by_cases hrevoked : old.revokedAt = none
        · exact hs.revoked _ hmem old hold hrevoked
        · exact htarget.expired old (hid ▸ hold) hrevoked _ hissued hid
    · have hbefore := hs.revoked token hmem after hafter hunrevoked
      cases token with
      | refresh claims => exact hbefore
      | access claims sid =>
        rw [h.clock, h.decoded]
        exact hbefore

end Invariant

theorem AuthState.Kept.of_requests (hs : s.Kept) (hsessions : t.sessions = s.sessions)
    (hissued : t.issued = s.issued) (hredeemed : t.redeemed = s.redeemed)
    (hrevoked : t.revoked = s.revoked) (hclock : s.clock ≤ t.clock)
    (hdecoded : ∀ token ∈ t.decoded, token ∈ s.decoded ∨ s.Verifies token) : t.Kept where
  unique := by
    rw [hsessions]
    exact hs.unique
  session := by
    rw [hsessions, hissued]
    exact hs.session
  redeemedIssued := by
    rw [hredeemed, hissued]
    exact hs.redeemedIssued
  revokedIssued := by
    rw [hrevoked, hissued]
    exact hs.revokedIssued
  decodedIssued token hmem := by
    rw [hissued]
    rcases hdecoded token hmem with hold | hverifies
    · exact hs.decodedIssued token hold
    · exact hverifies.1
  redeemed := by
    rw [hredeemed, hsessions]
    exact hs.redeemed
  revoked token hmem row hrow hunrevoked := by
    rw [hrevoked] at hmem
    rw [hsessions] at hrow
    have hbefore := hs.revoked token hmem row hrow hunrevoked
    cases token with
    | refresh claims => exact hbefore
    | access claims sid =>
      obtain ⟨hexpired, hnot⟩ := hbefore
      refine ⟨hexpired.trans hclock, ?_⟩
      intro hpending
      rcases hdecoded _ hpending with hold | ⟨-, hlive⟩
      · exact hnot hold
      · exact absurd hlive (not_lt.mpr hexpired)

theorem signIn_kept (hs : s.Kept) (hfresh : s.Fresh draw) (hwaits : s.WaitsFor userId deviceId)
    (h : s.issue settings userId user deviceId deviceName none draw = .ok t) : t.Kept := by
  obtain ⟨id, row, access, hissues, howner, hdevice, htarget⟩ := issue_ok h
  refine hissues.kept hs hfresh ?_
  obtain ⟨old, hrecord, hold⟩ | ⟨-, hnone, hfree⟩ := htarget
  · obtain hbad | ⟨-, hfind⟩ := hrecord
    · cases hbad
    have hget := (findSession_some hfind).1
    constructor
    · intro id' row' hrow' howner' hdevice'
      exact hs.unique id' id row' old hrow' hget (howner'.trans (howner.trans hold.1.symm))
        (hdevice'.trans (hdevice.trans hold.2.symm))
    · intro old' hold' hrevoked
      cases hget.symm.trans hold'
      exact hwaits id old hfind hrevoked
  · constructor
    · intro id' row' hrow' howner' hdevice'
      exact absurd ⟨howner'.trans howner, hdevice'.trans hdevice⟩ (findSession_none hnone hrow')
    · intro old hold
      rw [hfree] at hold
      cases hold

theorem refresh_kept {claims : Claims} (hs : s.Kept) (hfresh : s.Fresh draw)
    (hissued : Token.refresh claims ∈ s.issued)
    (h : s.refresh settings claims draw = .ok t) : t.Kept := by
  unfold AuthState.refresh at h
  split at h
  next user old _ hnamed =>
    obtain ⟨hredeems, h⟩ := raiseIf_bind_ok.mp h
    obtain ⟨issued, hissue, h⟩ := bind_ok_iff.mp h
    cases h
    obtain ⟨hget, -, -⟩ := namedSession_some hnamed
    obtain ⟨id, row, access, hissues, howner, hdevice, htarget⟩ := issue_ok hissue
    obtain ⟨old', hrecord, hold⟩ | ⟨hbad, -⟩ := htarget
    · obtain hrecord | ⟨hbad, -⟩ := hrecord
      · cases hrecord
        have hkept : issued.Kept := by
          refine hissues.kept hs hfresh ⟨?_, ?_⟩
          · intro id' row' hrow' howner' hdevice'
            exact hs.unique id' _ row' old hrow' hget (howner'.trans (howner.trans hold.1.symm))
              (hdevice'.trans (hdevice.trans hold.2.symm))
          · intro old' hold' hrevoked
            cases hget.symm.trans hold'
            exact absurd (not_not.mp hredeems).1 hrevoked
        have hreplaced : row.refreshTokenHash ≠ claims := by
          intro heq
          exact hfresh.2.2.2 _ hissued (heq ▸ hissues.refreshJti)
        exact
          { hkept with
            redeemedIssued := by
              intro redeemed hmem
              rcases List.mem_cons.mp hmem with rfl | hmem
              · rw [hissues.issued]
                exact List.mem_cons_of_mem _ (List.mem_cons_of_mem _ hissued)
              · exact hkept.redeemedIssued redeemed (hissues.redeemed ▸ hmem)
            redeemed := by
              intro redeemed hmem after hafter
              rcases List.mem_cons.mp hmem with rfl | hmem
              · rw [hissues.sessions, Dict.get?_set, if_pos rfl] at hafter
                cases hafter
                exact hreplaced
              · exact hkept.redeemed redeemed (hissues.redeemed ▸ hmem) after hafter }
      · cases hbad
    · cases hbad
  · cases h

theorem revoke_kept {session : MobileSession} (hs : s.Kept) (h : s.revoke session = .ok t) :
    t.Kept := by
  unfold AuthState.revoke at h
  split at h
  · cases h
  next row hget =>
    obtain ⟨-, h⟩ := raiseIf_bind_ok.mp h
    cases h
    have hrows {id : SessionId} {after : DeviceSession}
        (hafter : (s.sessions.set session.sessionId
          { row with revokedAt := some s.clock }).get? id =
          some after) :
        ∃ before, s.sessions.get? id = some before ∧ after.ownerUserId = before.ownerUserId ∧
          after.deviceId = before.deviceId ∧
          after.refreshTokenHash = before.refreshTokenHash ∧
          (after.revokedAt = none → id ≠ session.sessionId ∧ before.revokedAt = none) := by
      rcases Dict.of_get?_set hafter with ⟨rfl, rfl⟩ | ⟨hother, hold⟩
      · refine ⟨row, hget, rfl, rfl, rfl, ?_⟩
        intro hnone
        cases hnone
      · exact ⟨after, hold, rfl, rfl, rfl, fun hnone => ⟨hother, hnone⟩⟩
    constructor
    · intro first second row₁ row₂ hfirst hsecond howner hdevice
      obtain ⟨before₁, hbefore₁, howner₁, hdevice₁, -⟩ := hrows hfirst
      obtain ⟨before₂, hbefore₂, howner₂, hdevice₂, -⟩ := hrows hsecond
      exact hs.unique first second before₁ before₂ hbefore₁ hbefore₂
        (howner₁.symm.trans (howner.trans howner₂)) (hdevice₁.symm.trans (hdevice.trans hdevice₂))
    · intro token hmem
      obtain ⟨before, hbefore⟩ := hs.session token hmem
      dsimp only
      rw [Dict.get?_set]
      split
      · exact ⟨_, rfl⟩
      · exact ⟨before, hbefore⟩
    · exact hs.redeemedIssued
    · intro token hmem
      rcases List.mem_append.mp hmem with hmem | hmem
      · exact (List.mem_filter.mp hmem).1
      · exact hs.revokedIssued token hmem
    · exact hs.decodedIssued
    · intro claims hmem after hafter
      obtain ⟨before, hbefore, -, -, hhash, -⟩ := hrows hafter
      rw [hhash]
      exact hs.redeemed claims hmem before hbefore
    · intro token hmem after hafter hunrevoked
      obtain ⟨before, hbefore, -, -, hhash, hnone⟩ := hrows hafter
      obtain ⟨hother, hbeforeNone⟩ := hnone hunrevoked
      rcases List.mem_append.mp hmem with hmem | hmem
      · exact absurd (of_decide_eq_true (List.mem_filter.mp hmem).2) hother
      · have hbefore := hs.revoked token hmem before hbefore hbeforeNone
        cases token with
        | refresh claims => exact hhash ▸ hbefore
        | access claims sid => exact hbefore

theorem step_kept {action : Action} (hs : s.Kept) (hok : ReissuesAfterExpiry s action)
    (h : step settings s action = some t) : t.Kept := by
  cases action with
  | tick now =>
    obtain ⟨hclock, h⟩ := Option.ite_none_right_eq_some.mp h
    cases h
    exact hs.of_requests rfl rfl rfl rfl hclock fun token hmem => .inl hmem
  | setUser userId user =>
    cases h
    exact hs.of_requests rfl rfl rfl rfl le_rfl fun token hmem => .inl hmem
  | login userId passwordMatches deviceId deviceName draw =>
    obtain ⟨hfresh, h⟩ := Option.ite_none_right_eq_some.mp h
    have hlogin := eq_ok_of_toOption h
    unfold AuthState.login at hlogin
    split at hlogin
    · cases hlogin
    · obtain ⟨-, hissue⟩ := raiseIf_bind_ok.mp hlogin
      exact signIn_kept hs hfresh hok hissue
  | googleLogin userId created deviceId deviceName draw =>
    obtain ⟨hfresh, h⟩ := Option.ite_none_right_eq_some.mp h
    have hlogin := eq_ok_of_toOption h
    unfold AuthState.googleLogin at hlogin
    dsimp only at hlogin
    split at hlogin
    · cases hlogin
    · obtain ⟨-, hissue⟩ := raiseIf_bind_ok.mp hlogin
      split at hissue
      next created _ _ _ =>
        have hknown : AuthState.Kept
            { s with users := s.users.set userId { created with isActive := true } } :=
          hs.of_requests rfl rfl rfl rfl le_rfl fun token hmem => .inl hmem
        exact signIn_kept hknown hfresh hok hissue
      · exact signIn_kept hs hfresh hok hissue
  | decode token =>
    obtain ⟨hverifies, h⟩ := Option.ite_none_right_eq_some.mp h
    cases h
    refine hs.of_requests rfl rfl rfl rfl le_rfl fun other hmem => ?_
    rcases List.mem_cons.mp hmem with rfl | hmem
    · exact .inr hverifies
    · exact .inl hmem
  | refresh claims draw =>
    obtain ⟨⟨hdecoded, hfresh⟩, h⟩ := Option.ite_none_right_eq_some.mp h
    have hdone : AuthState.Kept { s with decoded := s.decoded.erase (.refresh claims) } :=
      hs.of_requests rfl rfl rfl rfl le_rfl fun token hmem => .inl (List.mem_of_mem_erase hmem)
    split at h
    · cases h
      exact hdone
    next after hrefresh =>
      cases h
      exact refresh_kept hdone hfresh (hs.decodedIssued _ hdecoded) hrefresh
  | authenticate claims sid =>
    obtain ⟨hdecoded, h⟩ := Option.ite_none_right_eq_some.mp h
    dsimp only at h
    split at h
    · cases h
      exact hs.of_requests rfl rfl rfl rfl le_rfl
        fun token hmem => .inl (List.mem_of_mem_erase hmem)
    · cases h
      exact hs.of_requests rfl rfl rfl rfl le_rfl
        fun token hmem => .inl (List.mem_of_mem_erase hmem)
  | revoke session =>
    obtain ⟨-, h⟩ := Option.ite_none_right_eq_some.mp h
    exact revoke_kept hs (eq_ok_of_toOption h)

/-- While every sign-in on a revoked row waits until the access tokens of the row
have expired, tokens keep what they are promised. -/
theorem tokens_sound {settings : Settings} {s : AuthState}
    (h : ReachableVia Start (step settings) ReissuesAfterExpiry s) : s.Sound := by
  have hkept : s.Kept := by
    refine invariant (fun s hstart => ?_) (fun s action t hs => step_kept hs) h
    obtain ⟨clock, rfl⟩ := hstart
    constructor
    · intro id id' row row' hget
      cases hget
    · intro token hmem
      cases hmem
    · intro claims hmem
      cases hmem
    · intro token hmem
      cases hmem
    · intro token hmem
      cases hmem
    · intro claims hmem
      cases hmem
    · intro token hmem
      cases hmem
  exact hkept.sound

/-- Half an hour for access tokens, thirty days for refresh tokens. -/
def mobileSettings : Settings := ⟨30, 30⟩

def drawAt (jti : String) (stamp : Instant) : Draw := ⟨"session", jti, stamp, stamp, stamp⟩

def claimsAt (jti : String) (exp : Instant) : Claims :=
  ⟨"user", 1, "phone", "Phone", jti, "session", exp⟩

/-- The tokens of the first sign-in, at the start of the clock. -/
def firstRefresh : Claims := claimsAt "first" 2592000000000

def firstAccess : Token := .access (claimsAt "first" 1800000000) firstRefresh

/-- A user signs in on a device, signs out with the access token, and signs in on
the device again at a later time. -/
def reloginAt (stamp : Instant) : List Action :=
  [.setUser 1 ⟨"user", true⟩,
    .login 1 true "phone" "Phone" (drawAt "first" 0),
    .decode firstAccess,
    .authenticate firstAccess.claims firstRefresh,
    .revoke ⟨1, "session", "phone"⟩,
    .tick stamp,
    .login 1 true "phone" "Phone" (drawAt "second" stamp)]

/-- A session is revoked, and the device logs in again once its token has expired. -/
theorem tokens_sound_after_expiry :
    ∃ s, ReachableVia Start (step mobileSettings) ReissuesAfterExpiry s ∧ s.Sound ∧
      firstAccess ∈ s.revoked := by
  obtain ⟨s, hrun, hrevoked⟩ := (Option.any_eq_true _ _).mp
    (show ((run (step mobileSettings) { clock := 0 } (reloginAt 1800000000)).any fun s =>
      decide (firstAccess ∈ s.revoked)) = true by decide +kernel)
  have halong : Along (step mobileSettings) ReissuesAfterExpiry { clock := 0 }
      (reloginAt 1800000000) := by decide +kernel
  have hreach : ReachableVia Start (step mobileSettings) ReissuesAfterExpiry s :=
    (ReachableVia.start ⟨0, rfl⟩).run halong hrun
  exact ⟨s, hreach, tokens_sound hreach, of_decide_eq_true hrevoked⟩

/-- The second sign-in comes a minute after the sign-out, and the access token from
before it is accepted. -/
theorem relogin_revives_access_token :
    ∃ s, Reachable Start (step mobileSettings) s ∧ ¬ s.Sound := by
  obtain ⟨s, hrun, hcheck⟩ := (Option.any_eq_true _ _).mp
    (show ((run (step mobileSettings) { clock := 0 } (reloginAt 60000000)).any fun s =>
      decide (firstAccess ∈ s.revoked ∧ s.Verifies firstAccess) &&
      (s.activeUser 1 "user").isSome &&
      (s.namedSession firstAccess.claims).any fun row =>
        decide (row.revokedAt = none ∧ s.clock < row.expiresAt)) = true by decide +kernel)
  simp only [Bool.and_eq_true, decide_eq_true_eq, Option.isSome_iff_exists,
    Option.any_eq_true] at hcheck
  obtain ⟨⟨⟨hrevoked, hverifies⟩, user, huser⟩, row, hrow, hopen⟩ := hcheck
  refine ⟨s, reachable_of_run ⟨0, rfl⟩ hrun, ?_⟩
  intro hsound
  exact hsound.revoked firstAccess hrevoked ⟨.inl hverifies, user, row, huser, hrow, hopen⟩

end KAssetTrader.Devices
