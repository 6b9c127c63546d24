import LanguageGuru.Backend.MemoryRuns

/-!
# Accounts

The part of a user record that no request changes, and the accounts of a run: the seeded demo
account, and one for every registration that is answered 201. Accounts are only ever appended,
and no two of them share an email up to letter case, so a login finds the account it names.

## Main definitions

* `User.account`: the id, the email, the password hash and the time of creation of a user
* `UniqueEmails P s`: no two users of the state share an email up to letter case
* `AccountOf`: the accounts of a run, each as it was created and with the password it was created
  with

## Main results

* `accounts_after`: a run only appends accounts
* `uniqueEmails_after`: a run keeps emails unique
* `AccountOf.mem`: an account of a run is still there at its end
* `respond_login`: what a login of an account is answered
-/

namespace LanguageGuru

open Process

/-- The fields of a user record that no request changes. -/
structure Account where
  id : String
  email : String
  passwordHash : String
  createdAt : Time
  deriving DecidableEq, Repr

def User.account (u : User) : Account := ⟨u.id, u.email, u.passwordHash, u.createdAt⟩

/-- No two users share an email up to letter case. -/
def UniqueEmails (P : Platform) (s : MemoryState) : Prop :=
  (s.users.map fun u => P.toLowerCase u.email).Nodup

variable {P : Platform} {cfg : Config} {s : MemoryState}

/-! ## Accounts are only appended -/

section Append

theorem accounts_setRole (id role : String) :
    (s.setRole id role).users.map User.account = s.users.map User.account := by
  refine Keyed.map_update ?_ s.users
  exact fun _ _ => rfl

theorem accounts_addUser (u : User) :
    (s.addUser u).users.map User.account = s.users.map User.account ++ [u.account] := by
  simp [MemoryState.addUser]

theorem accounts_next (req : Request) :
    s.users.map User.account <+: (s.next P cfg req).users.map User.account := by
  -- nothing, a registration, a change of role, or a write of progress
  rcases next_cases P cfg s req with h | ⟨value, -, h⟩ | ⟨value, user, -, h⟩ | ⟨value, user, -, h⟩
  · rw [h]
  · rw [h, accounts_addUser]
    exact List.prefix_append _ _
  · rw [h, accounts_setRole]
  · rw [h]
    exact List.prefix_rfl

/-- **A run only appends accounts.** -/
theorem accounts_after (P : Platform) (cfg : Config) (s : MemoryState) (reqs : List Request) :
    s.users.map User.account <+: (s.after P cfg reqs).users.map User.account :=
  run_rel (R := fun s s' : MemoryState =>
      s.users.map User.account <+: s'.users.map User.account)
    (fun _ => List.prefix_rfl) List.IsPrefix.trans (fun _ req => accounts_next req) s reqs

/-- The ids of the users are only appended too. -/
theorem ids_after (P : Platform) (cfg : Config) (s : MemoryState) (reqs : List Request) :
    s.users.map User.id <+: (s.after P cfg reqs).users.map User.id := by
  have h : (s.users.map User.account).map Account.id <+:
      ((s.after P cfg reqs).users.map User.account).map Account.id :=
    (accounts_after P cfg s reqs).map Account.id
  rw [List.map_map, List.map_map] at h
  exact h

end Append

/-! ## Emails stay unique -/

section Emails

theorem userByEmail_eq_lookup (email : String) :
    s.userByEmail P email =
      Keyed.lookup (fun u => P.toLowerCase u.email) (P.toLowerCase email) s.users := rfl

theorem mem_of_userByEmail {email : String} {u : User} (h : s.userByEmail P email = some u) :
    u ∈ s.users := List.mem_of_find?_eq_some h

theorem email_of_userByEmail {email : String} {u : User} (h : s.userByEmail P email = some u) :
    P.toLowerCase u.email = P.toLowerCase email := by
  unfold MemoryState.userByEmail at h
  simpa using List.find?_some h

/-- A user is found under every letter-case variant of its email. -/
theorem userByEmail_of_mem (hs : UniqueEmails P s) {u : User} (hu : u ∈ s.users) {email : String}
    (he : P.toLowerCase email = P.toLowerCase u.email) : s.userByEmail P email = some u := by
  rw [userByEmail_eq_lookup, he]
  exact Keyed.lookup_of_mem hs hu

theorem uniqueEmails_of_accounts {s' : MemoryState}
    (h : s'.users.map User.account = s.users.map User.account) (hs : UniqueEmails P s) :
    UniqueEmails P s' := by
  have hmap : ∀ t : MemoryState, (t.users.map fun u => P.toLowerCase u.email) =
      (t.users.map User.account).map fun a => P.toLowerCase a.email := fun t => by
    rw [List.map_map]
    rfl
  rw [UniqueEmails, hmap, h, ← hmap]
  exact hs

/-- A registration is answered 201 only for an email that no user has in any letter case. -/
theorem uniqueEmails_addUser (hlower : ∀ e, P.toLowerCase (P.toLowerCase e) = P.toLowerCase e)
    (hs : UniqueEmails P s) {req : Request} {value : RegisterValue}
    (hr : s.Registers P req value) : UniqueEmails P (s.addUser (createdUser P req value)) := by
  obtain ⟨body, -, -, -, hnone⟩ := hr
  have hnew : P.toLowerCase (createdUser P req value).email = P.toLowerCase value.email :=
    hlower value.email
  have hfresh : ∀ u ∈ s.users, P.toLowerCase u.email ≠ P.toLowerCase value.email :=
    Keyed.lookup_eq_none.mp hnone
  simp only [UniqueEmails, MemoryState.addUser, List.map_append, List.map_singleton, hnew]
  refine List.nodup_append.mpr ⟨hs, by simp, ?_⟩
  -- the lookup of the registration found nobody with the new email
  rintro _ he _ he' rfl
  obtain ⟨u, hu, hue⟩ := List.mem_map.mp he
  exact hfresh u hu (hue.trans (List.mem_singleton.mp he'))

theorem uniqueEmails_next (hlower : ∀ e, P.toLowerCase (P.toLowerCase e) = P.toLowerCase e)
    (hs : UniqueEmails P s) (req : Request) : UniqueEmails P (s.next P cfg req) := by
  rcases next_cases P cfg s req with h | ⟨value, hr, h⟩ | ⟨value, user, -, h⟩ | ⟨value, user, -, h⟩
  · rwa [h]
  · rw [h]
    exact uniqueEmails_addUser hlower hs hr
  · rw [h]
    exact uniqueEmails_of_accounts (accounts_setRole _ _) hs
  · rw [h]
    exact hs

/-- **A run keeps emails unique.** -/
theorem uniqueEmails_after (hlower : ∀ e, P.toLowerCase (P.toLowerCase e) = P.toLowerCase e)
    (hs : UniqueEmails P s) (reqs : List Request) : UniqueEmails P (s.after P cfg reqs) :=
  run_invariant (I := UniqueEmails P) (fun _ req h => uniqueEmails_next hlower h req) hs reqs

end Emails

/-! ## The accounts of a run -/

section Runs

variable (P cfg)

/-- The account `a`, as it was created, is one of the run `reqs` from `s₀` with this password: a
registration of the run was answered 201 and created it. -/
def MemoryState.Opened (s₀ : MemoryState) (reqs : List Request) (a : User) (password : String) :
    Prop :=
  ∃ pre req value, pre ++ [req] <+: reqs ∧ (s₀.after P cfg pre).Registers P req value ∧
    a = createdUser P req value ∧ password = value.password

variable (catalogue : List CoreLesson) (salt : String) (now : Time)

/-- The accounts of the run `reqs` from a fresh memory store, with their passwords. -/
def AccountOf (reqs : List Request) (a : User) (password : String) : Prop :=
  (a = demoUser P "u_demo" salt now ∧ password = "demo1234") ∨
    (createMemoryStore P catalogue salt now).Opened P cfg reqs a password

variable {P cfg catalogue salt now} {reqs : List Request} {a : User} {password : String}

theorem uniqueEmails_createMemoryStore : UniqueEmails P (createMemoryStore P catalogue salt now) :=
  List.nodup_singleton _

theorem next_of_registers {req : Request} {value : RegisterValue}
    (h : s.Registers P req value) : s.next P cfg req = s.addUser (createdUser P req value) := by
  obtain ⟨body, hp, he, hv, hu⟩ := h
  simp only [MemoryState.next, serve, hp, routers, he, exec_register, hv, hu]

/-- **An account of a run is still there at its end.** -/
theorem AccountOf.mem (h : AccountOf P cfg catalogue salt now reqs a password) :
    ∃ u ∈ ((createMemoryStore P catalogue salt now).after P cfg reqs).users,
      u.account = a.account := by
  rw [← List.mem_map]
  rcases h with ⟨rfl, -⟩ | ⟨pre, req, value, ⟨post, rfl⟩, hr, rfl, -⟩
  · exact (accounts_after P cfg _ reqs).subset (by simp [createMemoryStore])
  · -- the registration appends the account, and the requests after it keep it
    rw [MemoryState.after_append, MemoryState.after_snoc, next_of_registers hr]
    refine (accounts_after P cfg _ post).subset ?_
    rw [accounts_addUser]
    simp

theorem AccountOf.passwordHash (h : AccountOf P cfg catalogue salt now reqs a password) :
    ∃ salt, a.passwordHash = P.hashSync password salt := by
  rcases h with ⟨rfl, rfl⟩ | ⟨pre, req, value, -, -, rfl, rfl⟩
  · exact ⟨_, rfl⟩
  · exact ⟨_, rfl⟩

theorem passwordKey_required {password : String} {field : Option Json}
    (h : passwordKey.required P field = .ok password) :
    passwordKey.required P (some (.str password)) = .ok password := by
  obtain ⟨s, -, hcheck⟩ := StringKey.required_eq_ok.mp h
  -- a password is kept as it is
  have hs : s = password := (StringKey.check_eq_ok.mp hcheck).1
  exact StringKey.required_eq_ok.mpr ⟨password, rfl, hs ▸ hcheck⟩

/-- The password of an account passes the rules for passwords. -/
theorem AccountOf.password_ok (h : AccountOf P cfg catalogue salt now reqs a password) :
    passwordKey.required P (some (.str password)) = .ok password := by
  rcases h with ⟨-, rfl⟩ | ⟨pre, req, value, -, ⟨body, -, -, hv, -⟩, -, rfl⟩
  · have hcheck : passwordKey.check P "demo1234" = .ok "demo1234" := by
      refine StringKey.check_eq_ok.mpr ⟨rfl, by decide, ?_, ?_, nofun⟩ <;> decide
    exact hcheck
  · obtain ⟨fields, -, -, -, -, hp, -⟩ := registerSchema_eq_ok.mp hv
    exact passwordKey_required hp

/-- What a request that logs in with accepted values is answered, and what it leaves. -/
theorem respond_login (cfg : Config) {req : Request} {body : Json} {value : LoginValue}
    {user : User}
    (hp : req.payload = .parsed body) (he : req.endpoint = some .login)
    (hv : loginSchema P body.orEmpty = .ok value) (hu : s.userByEmail P value.email = some user) :
    (P.compareSync value.password user.passwordHash = true →
      ∃ u, u.id = user.id ∧ s.respond P cfg req =
        [⟨200, .session (signToken P cfg u req.seeds.signedAt) (sanitizeUser u)⟩]) ∧
    (P.compareSync value.password user.passwordHash = false →
      s.respond P cfg req = [⟨401, .error "Invalid email or password"⟩]) := by
  have hexec : s.respond P cfg req =
      ((loginFound P cfg req value (some user)).exec (memoryStore P) s).sent := by
    simp only [MemoryState.respond, serve, hp, routers, he, exec_login, hv, hu]
  rw [hexec, exec_loginFound]
  constructor
  · intro hc
    rw [if_neg (by simp [hc])]
    split_ifs
    · -- the role is changed: the answer shows the user found under the id
      have hmem : user ∈ s.users := mem_of_userByEmail hu
      obtain ⟨u, hfound⟩ : ∃ u, s.userById user.id = some u := by
        rw [← Option.isSome_iff_exists, MemoryState.userById, Keyed.lookup, List.find?_isSome]
        exact ⟨user, hmem, by simp⟩
      have hid : u.id = user.id := Keyed.key_of_lookup hfound
      refine ⟨{ u with role := requestedRole value }, hid, ?_⟩
      rw [hfound]
      rfl
    · exact ⟨user, rfl, rfl⟩
  · intro hc
    rw [if_pos hc]

/-- **A login of an account of a run** is answered 200 with the account's id when the password
matches its hash, and 401 when it does not. -/
theorem AccountOf.respond_login
    (hlower : ∀ e, P.toLowerCase (P.toLowerCase e) = P.toLowerCase e)
    (h : AccountOf P cfg catalogue salt now reqs a password) {req : Request} {body : Json}
    {value : LoginValue} (hp : req.payload = .parsed body) (he : req.endpoint = some .login)
    (hv : loginSchema P body.orEmpty = .ok value)
    (hemail : P.toLowerCase value.email = P.toLowerCase a.email) :
    let s := (createMemoryStore P catalogue salt now).after P cfg reqs
    (P.compareSync value.password a.passwordHash = true →
      ∃ u : User, u.id = a.id ∧ s.respond P cfg req =
        [⟨200, .session (signToken P cfg u req.seeds.signedAt) (sanitizeUser u)⟩]) ∧
    (P.compareSync value.password a.passwordHash = false →
      s.respond P cfg req = [⟨401, .error "Invalid email or password"⟩]) := by
  intro s
  obtain ⟨u, hu, ha⟩ := h.mem
  simp only [User.account, Account.mk.injEq] at ha
  obtain ⟨hid, hae, hhash, -⟩ := ha
  have hfound : s.userByEmail P value.email = some u :=
    userByEmail_of_mem (uniqueEmails_after hlower uniqueEmails_createMemoryStore reqs) hu
      (hemail.trans (by rw [hae]))
  have hlogin := LanguageGuru.respond_login cfg hp he hv hfound
  rw [hid, hhash] at hlogin
  exact hlogin

end Runs

end LanguageGuru
