import KAssetTrader.Library.Transition
import KAssetTrader.Recommendation.Row

/-!
The accounts that registrations and first logins with Google create, and the account that the
identifier of a login resolves to. User names and e-mail addresses are unique each among
themselves; a login looks among the names first and among the addresses only if no name fits.
-/

namespace KAssetTrader.Devices

open Transition
open Unicode (strip)

section Accounts

/-- The columns of `User` that the identity of an account rests on. -/
structure Account where
  username : String
  email : Option String
  googleSub : Option String := none
  hashedPassword : Option String := none
  isActive : Bool := true
  deriving DecidableEq

/-- `RegisterRequest`, less the device. -/
structure RegisterRequest where
  username : String
  email : String
  password : String

inductive IdentityError where
  | validation | usernameTaken | emailTaken | conflict

/-- What the service takes from outside: `str.lower`, `lower` of the database, the policy and the
hash of passwords, and the digest of a Google subject. -/
structure Outside where
  lower : String → String
  dbLower : String → String
  validPassword : String → Bool
  passwordHash : String → String
  digest : String → String

variable (o : Outside) (users : List Account)

def named (username : String) : List Account :=
  users.filter fun user => o.dbLower user.username = o.lower username

def addressed (email : String) : List Account :=
  users.filter fun user => user.email.map o.dbLower = some (o.lower email)

def loginUser (identifier : String) : Option Account :=
  if identifier = "" then none
  else
    match named o users identifier with
    | [user] => some user
    | _ :: _ => none
    | [] =>
      match addressed o users identifier with
      | [user] => some user
      | _ => none

/-- Two rows that the unique indexes keep apart. -/
def Account.conflicts (a b : Account) : Bool := decide
  (o.dbLower a.username = o.dbLower b.username ∨
    a.email.isSome ∧ a.email.map o.dbLower = b.email.map o.dbLower ∨
    a.googleSub.isSome ∧ a.googleSub = b.googleSub)

def insertAccount (new : Account) : Option (List Account) :=
  if users.any (·.conflicts o new) then none else some (users ++ [new])

def register (request : RegisterRequest) : Except IdentityError (List Account) :=
  let username := strip request.username
  let email := o.lower (strip request.email)
  if username.length < 3 ∨ 50 < username.length then .error .validation
  else if o.validPassword request.password = false then .error .validation
  else if named o users username ≠ [] then .error .usernameTaken
  else if addressed o users email ≠ [] then .error .emailTaken
  else
    let user : Account :=
      { username, email := some email, hashedPassword := some (o.passwordHash request.password) }
    match insertAccount o users user with
    | none => .error .conflict
    | some inserted => .ok inserted

/-- The candidate of `_available_google_username` in one turn of its loop. -/
def googleCandidate (googleSub : String) (attempt : ℕ) : String :=
  let base := ("google-" ++ googleSub).toList.take 32
  let suffix := match attempt with
    | 0 => ""
    | 1 => "-" ++ o.digest googleSub
    | more + 1 => "-" ++ o.digest googleSub ++ "-" ++ toString more
  String.ofList (base.take (50 - suffix.length)) ++ suffix

def availableGoogleEmail (claim : Option String) : Option String :=
  (claim.map fun text => o.lower (strip text)).filter fun email =>
    email ≠ "" ∧ ∀ user ∈ users, user.email.map o.dbLower ≠ some email

/-- `google_login` of a verified token, less its session. The loop that looks for a free user name
ends after `attempt` turns. -/
def googleLogin (googleSub : String) (emailClaim : Option String) (attempt : ℕ) :
    Option (List Account) :=
  if users.any (·.googleSub = some googleSub) then some users
  else if (∀ k < attempt, named o users (googleCandidate o googleSub k) ≠ []) ∧
      named o users (googleCandidate o googleSub attempt) = [] then
    let user : Account :=
      { username := googleCandidate o googleSub attempt
        email := availableGoogleEmail o users emailClaim
        googleSub := some googleSub }
    some ((insertAccount o users user).getD users)
  else none

inductive AccountAction where
  | register (request : RegisterRequest)
  | google (googleSub : String) (emailClaim : Option String) (attempt : ℕ)

/-- One call. A call that is refused leaves the accounts as they are. -/
def accountStep : AccountAction → Option (List Account)
  | .register request => some ((register o users request).toOption.getD users)
  | .google googleSub emailClaim attempt => googleLogin o users googleSub emailClaim attempt

end Accounts

variable {o : Outside} {users after : List Account} {user : Account}

/-- No two accounts share what an index keeps unique. -/
def Unique (o : Outside) (users : List Account) : Prop :=
  users.Pairwise fun a b => a.conflicts o b = false

variable {new : Account} {other : Account}

theorem Unique.insert (h : Unique o users) (hins : insertAccount o users new = some after) :
    Unique o after := by
  unfold insertAccount at hins
  split at hins
  · cases hins
  next hfree =>
    cases hins
    simp only [List.any_eq_true, not_exists, not_and, Bool.not_eq_true] at hfree
    exact List.pairwise_append.mpr ⟨h, List.pairwise_singleton _ _, by simpa using hfree⟩

theorem Unique.insert_getD (h : Unique o users) :
    Unique o ((insertAccount o users new).getD users) := by
  cases hins : insertAccount o users new with
  | none => exact h
  | some inserted => exact h.insert hins

/-- An action adds only an account that the unique indexes let in. -/
theorem Unique.step {action : AccountAction} (h : Unique o users)
    (hstep : accountStep o users action = some after) : Unique o after := by
  cases action with
  | register request =>
    cases hstep
    cases hregister : register o users request with
    | error e => exact h
    | ok inserted =>
      simp only [register] at hregister
      split_ifs at hregister
      split at hregister
      · cases hregister
      next hins =>
        cases hregister
        exact h.insert hins
  | google googleSub emailClaim attempt =>
    simp only [accountStep, googleLogin] at hstep
    split_ifs at hstep
    · cases hstep
      exact h
    · cases hstep
      exact h.insert_getD

theorem filter_eq_singleton {p : Account → Bool} (hnodup : users.Nodup) (hmem : user ∈ users)
    (hp : p user = true) (honly : ∀ other ∈ users, p other = true → other = user) :
    users.filter p = [user] := by
  have hfiltered : (users.filter p).Nodup := hnodup.filter _
  apply List.perm_singleton.mp
  rw [List.perm_ext_iff_of_nodup hfiltered (List.nodup_singleton _)]
  intro other
  rw [List.mem_filter, List.mem_singleton]
  constructor
  · exact fun hother => honly other hother.1 hother.2
  · rintro rfl
    exact ⟨hmem, hp⟩

theorem Unique.nodup (h : Unique o users) : users.Nodup :=
  h.imp fun {a b} hfree heq => by simp [heq, Account.conflicts] at hfree

theorem Unique.eq_of_username (h : Unique o users) (hmem : user ∈ users) (hother : other ∈ users)
    (heq : o.dbLower other.username = o.dbLower user.username) :
    other = user := by
  have hnames : users.Pairwise fun a b => o.dbLower a.username ≠ o.dbLower b.username :=
    h.imp fun {a b} hfree heq => by simp [heq, Account.conflicts] at hfree
  have : Std.Symm fun a b : Account => o.dbLower a.username ≠ o.dbLower b.username :=
    ⟨fun _ _ => Ne.symm⟩
  by_contra hne
  exact hnames.forall hother hmem hne heq

theorem Unique.eq_of_email {email : String} (h : Unique o users) (hmem : user ∈ users)
    (hother : other ∈ users) (hemail : user.email.map o.dbLower = some email)
    (heq : other.email.map o.dbLower = some email) : other = user := by
  have hemails : users.Pairwise fun a b =>
      ¬ (a.email.map o.dbLower = some email ∧ b.email.map o.dbLower = some email) := by
    refine h.imp fun {a b} hfree ⟨ha, hb⟩ => ?_
    have hsome : a.email.isSome := by rw [← Option.isSome_map (f := o.dbLower), ha]; rfl
    simp [Account.conflicts, hsome, ha, hb] at hfree
  have : Std.Symm fun a b : Account =>
      ¬ (a.email.map o.dbLower = some email ∧ b.email.map o.dbLower = some email) :=
    ⟨fun _ _ hfree hboth => hfree hboth.symm⟩
  by_contra hne
  exact hemails.forall hother hmem hne ⟨heq, hemail⟩

/-- The database lowers the stored names and addresses as `str.lower` does. -/
def LowersAlike (o : Outside) (users : List Account) : Prop :=
  ∀ user ∈ users, o.dbLower user.username = o.lower user.username ∧
    ∀ email ∈ user.email, o.dbLower email = o.lower email

section

variable (hlower : LowersAlike o users) (h : Unique o users) (hmem : user ∈ users)
include hlower h hmem

/-- A user name, in any letter case, resolves to its account. -/
theorem Unique.loginUser_username {identifier : String} (hsome : identifier ≠ "")
    (hcase : o.lower identifier = o.lower user.username) :
    loginUser o users identifier = some user := by
  have hnamed : named o users identifier = [user] := by
    have hown := (hlower user hmem).1
    refine filter_eq_singleton h.nodup hmem (by simp [hown, hcase]) fun other hother hname => ?_
    rw [decide_eq_true_eq, hcase, ← hown] at hname
    exact h.eq_of_username hmem hother hname
  rw [loginUser, if_neg hsome, hnamed]

/-- An address that is the name of no account, in any letter case, resolves to its account. -/
theorem Unique.loginUser_email {identifier email : String} (hsome : identifier ≠ "")
    (hemail : user.email = some email) (hcase : o.lower identifier = o.lower email)
    (hfree : ∀ other ∈ users, o.lower other.username ≠ o.lower email) :
    loginUser o users identifier = some user := by
  have hnamed : named o users identifier = [] := by
    refine List.filter_eq_nil_iff.mpr fun other hother hname => hfree other hother ?_
    rw [decide_eq_true_eq, (hlower other hother).1, hcase] at hname
    exact hname
  have haddress : user.email.map o.dbLower = some (o.lower identifier) := by
    rw [hemail, Option.map_some, (hlower user hmem).2 email hemail, hcase]
  have haddressed : addressed o users identifier = [user] := by
    refine filter_eq_singleton h.nodup hmem (decide_eq_true haddress) fun other hother hsame => ?_
    exact h.eq_of_email hmem hother haddress (of_decide_eq_true hsame)
  rw [loginUser, if_neg hsome, hnamed, haddressed]

end

structure Resolves (o : Outside) (users : List Account) (user : Account) : Prop where
  username : ∀ identifier, identifier ≠ "" → o.lower identifier = o.lower user.username →
    loginUser o users identifier = some user
  email : ∀ email, user.email = some email → email ≠ "" → ∀ identifier, identifier ≠ "" →
    o.lower identifier = o.lower email → loginUser o users identifier = some user

/-- A user is found by each of his identifiers unless another one has his email as a username. -/
theorem identifiers_resolve_iff (hlower : LowersAlike o users)
    (h : Reachable (· = []) (accountStep o) users) (hmem : user ∈ users) :
    Resolves o users user ↔ ∀ email, user.email = some email → email ≠ "" →
      ∀ other ∈ users, o.lower other.username = o.lower email → other = user := by
  have hunique : Unique o users :=
    invariant (fun _ hstart => hstart ▸ List.Pairwise.nil) (fun _ _ _ h _ hstep => h.step hstep) h
  constructor
  · intro hresolves email hemail hsome other hother hname
    have hcaptured := hunique.loginUser_username hlower hother hsome hname.symm
    rw [hresolves.email email hemail hsome email hsome rfl] at hcaptured
    exact (Option.some.inj hcaptured).symm
  · intro hfree
    refine ⟨fun _ hsome => hunique.loginUser_username hlower hmem hsome, ?_⟩
    intro email hemail haddress identifier hsome hcase
    by_cases hname : o.lower user.username = o.lower email
    · exact hunique.loginUser_username hlower hmem hsome (hcase.trans hname.symm)
    · refine hunique.loginUser_email hlower hmem hsome hemail hcase fun other hother heq => hname ?_
      rw [← hfree email hemail haddress other hother heq]
      exact heq

/-- Letters in lower case, any password, no hash. -/
def plainOutside : Outside where
  lower text := String.ofList (text.toList.map Char.toLower)
  dbLower text := String.ofList (text.toList.map Char.toLower)
  validPassword _ := true
  passwordHash := id
  digest := id

def bobAccount : Account :=
  { username := "bob", email := some "bob@x.com", hashedPassword := some "secret" }

/-- The email is found whatever the case of its letters. -/
theorem identifiers_resolve_bob :
    loginUser plainOutside [bobAccount] "BOB@x.com" = some bobAccount := by
  have hrun : run (accountStep plainOutside) []
      [.register ⟨" bob", "Bob@x.com", "secret"⟩] = some [bobAccount] := by decide +kernel
  have hresolves := (identifiers_resolve_iff (fun _ _ => ⟨rfl, fun _ _ => rfl⟩)
    (reachable_of_run rfl hrun) (List.mem_singleton.mpr rfl)).mpr fun _ _ _ _ hother _ =>
      List.mem_singleton.mp hother
  exact hresolves.email "bob@x.com" rfl (by decide) "BOB@x.com" (by decide) (by decide +kernel)

/-- A second account takes the address of the first one as its user name. -/
theorem username_captures_email :
    ∃ users, Reachable (· = []) (accountStep plainOutside) users ∧
      ∃ user ∈ users, ¬ Resolves plainOutside users user := by
  obtain ⟨users, husers, hmem, hlogin⟩ :
      ∃ users, run (accountStep plainOutside) [] [.register ⟨"bob", "bob@x.com", "secret"⟩,
          .register ⟨"Bob@x.com", "eve@x.com", "other"⟩] = some users ∧
        bobAccount ∈ users ∧ loginUser plainOutside users "bob@x.com" ≠ some bobAccount :=
    exists_run (by decide +kernel)
  refine ⟨users, reachable_of_run rfl husers, bobAccount, hmem, fun hresolves => hlogin ?_⟩
  exact hresolves.email "bob@x.com" rfl (by decide) "bob@x.com" (by decide) rfl

end KAssetTrader.Devices
