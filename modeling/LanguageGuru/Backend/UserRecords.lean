import LanguageGuru.Backend.Logins
import LanguageGuru.Backend.Registration

/-!
# User records

The records of the users in terms of the requests and their responses, for requests executed one
after another. A record is well formed, its username and role are the ones given last, and a request
changes an existing record only when it is a login that is answered 200 for that user and gives a
role.

## Main definitions

* `MemoryState.transcript`: the requests of a run with their responses
* `usernameGiven`, `roleGiven`: what a request that was answered gives a user
* `lastGiven`: what was given last
* `User.WellFormed`: the bounds on the fields of a record
* `User.afterEntry`: the change that a request makes to a record

## Main results

* `registerSchema_trimmed`, `loginSchema_trimmed`: names and roles that the schemas accept
* `respond_cases`: a registration, a login, or nothing that concerns the users
* `users_next`: how a request changes the records
* `user_records_follow_requests`: the records after every run
-/

namespace LanguageGuru

open Process

/-! ## Requests and their responses -/

/-- The requests of a run, each with its responses. -/
def MemoryState.transcript (P : Platform) (cfg : Config) (s : MemoryState) :
    List Request → List (Request × List Response)
  | [] => []
  | req :: reqs => (req, s.respond P cfg req) :: transcript P cfg (s.next P cfg req) reqs

/-- The user of the session that a request was answered with. -/
def sessionUser (status : ℕ) : List Response → Option SanitizedUser
  | [⟨n, .session _ user⟩] => if n = status then some user else none
  | _ => none

section Given

variable (P : Platform) (id : String) (entry : Request × List Response)

/-- The values of a registration that was answered 201 for the user with the id. -/
def registered : Option RegisterValue :=
  if (sessionUser 201 entry.2).any fun user => user.id = id then entry.1.registration P else none

/-- The values of a login that was answered 200 for the user with the id. -/
def loggedIn : Option LoginValue :=
  if (sessionUser 200 entry.2).any fun user => user.id = id then entry.1.login P else none

/-- The role that a successful login gives: `role`, or else `targetRole`. -/
def roleOfLogin : Option String :=
  (loggedIn P id entry).bind fun value => value.role.or value.targetRole

/-- The role that a request gives: at registration, `role`, or else `targetRole`, or else the
default. -/
def roleGiven : Option String :=
  ((registered P id entry).map fun value =>
    (value.role.or value.targetRole).getD "Software Engineer").or (roleOfLogin P id entry)

/-- The username that a registration gives: `username`, or else `name`. -/
def usernameGiven : Option String :=
  (registered P id entry).bind fun value => value.username.or value.name

end Given

/-- What was given last, or what the record was seeded with. -/
def lastGiven (given : Request × List Response → Option String) (seeded : Option String)
    (transcript : List (Request × List Response)) : Option String :=
  (transcript.filterMap given).getLast?.or seeded

/-- A field of the demo account. -/
def demoField (id value : String) : Option String := if id = "u_demo" then some value else none

/-- A trimmed text with a number of characters in a range. -/
structure TrimmedText (low high : ℕ) (text : String) : Prop where
  trim_eq : trim text = text
  low_le : low ≤ jsLength text
  le_high : jsLength text ≤ high

/-- The bounds on the fields of a user record. -/
structure User.WellFormed (P : Platform) (u : User) : Prop where
  email : P.toLowerCase u.email = u.email
  username : TrimmedText 2 80 u.username
  role : TrimmedText 1 80 u.role

/-- A record after a request: a login of its user sets the role that it gives. -/
def User.afterEntry (P : Platform) (entry : Request × List Response) (u : User) : User :=
  match roleOfLogin P u.id entry with
  | none => u
  | some role => { u with role }

@[simp] theorem id_afterEntry (P : Platform) (entry : Request × List Response) (u : User) :
    (u.afterEntry P entry).id = u.id := by
  unfold User.afterEntry
  cases roleOfLogin P u.id entry <;> rfl

theorem transcript_snoc (P : Platform) (cfg : Config) (s : MemoryState) (reqs : List Request)
    (req : Request) :
    s.transcript P cfg (reqs ++ [req]) =
      s.transcript P cfg reqs ++ [(req, (s.after P cfg reqs).respond P cfg req)] := by
  induction reqs generalizing s with
  | nil => rfl
  | cons r reqs ih => exact congrArg ((r, s.respond P cfg r) :: ·) (ih (s.next P cfg r))

theorem lastGiven_snoc (given : Request × List Response → Option String) (seeded : Option String)
    (transcript : List (Request × List Response)) (entry : Request × List Response) :
    lastGiven given seeded (transcript ++ [entry]) =
      (given entry).or (lastGiven given seeded transcript) := by
  unfold lastGiven
  rw [List.filterMap_append]
  cases h : given entry with
  | none => simp [h]
  | some value => simp [h]

/-! ## What the schemas accept -/

theorem jsLength_pos {text : String} (h : text ≠ "") : 1 ≤ jsLength text := by
  unfold jsLength
  cases hchars : text.toList with
  | nil => exact absurd (String.toList_eq_nil_iff.mp hchars) h
  | cons c cs =>
    rw [List.map_cons, List.sum_cons]
    split <;> omega

/-- A key with `trim` accepts trimmed texts in its bounds. -/
theorem trimmed_of_optional {P : Platform} {k : StringKey} {low high : ℕ} {field : Option Json}
    {value : Option String} (htrims : k.trims = true) (hlow : low = 1 ∨ k.min = some low)
    (hhigh : k.max = some high) (h : k.optional P field = .ok value) :
    ∀ text ∈ value, TrimmedText low high text := by
  intro text htext
  rw [show value = some text from htext] at h
  obtain ⟨s, hcheck⟩ := StringKey.check_of_optional h
  obtain ⟨hconvert, hne, hmin, hmax, -⟩ := StringKey.check_eq_ok.mp hcheck
  have htrim : trim s = text := by
    rw [StringKey.convert, htrims] at hconvert
    exact hconvert
  refine ⟨by rw [← htrim, trim_trim], ?_, hmax high hhigh⟩
  -- a text is not empty, or the key has a bound of its own
  rcases hlow with rfl | hlow
  · exact jsLength_pos hne
  · exact hmin low hlow

/-- The names and roles of an accepted registration are trimmed and in their bounds. -/
theorem registerSchema_trimmed {P : Platform} {body : Json} {value : RegisterValue}
    (h : registerSchema P body = .ok value) :
    (∀ username ∈ value.username, TrimmedText 2 80 username) ∧
      (∀ name ∈ value.name, TrimmedText 2 80 name) ∧ (∀ role ∈ value.role, TrimmedText 1 80 role) ∧
      ∀ role ∈ value.targetRole, TrimmedText 1 80 role := by
  obtain ⟨fields, -, husername, hname, -, -, hrole, htarget, -, -⟩ := registerSchema_eq_ok.mp h
  exact ⟨trimmed_of_optional rfl (.inr rfl) rfl husername,
    trimmed_of_optional rfl (.inr rfl) rfl hname, trimmed_of_optional rfl (.inl rfl) rfl hrole,
    trimmed_of_optional rfl (.inl rfl) rfl htarget⟩

/-- An accepted registration gives one of the names. -/
theorem registerSchema_named {P : Platform} {body : Json} {value : RegisterValue}
    (h : registerSchema P body = .ok value) :
    ∃ username, value.username.or value.name = some username := by
  obtain ⟨fields, -, -, -, -, -, -, -, -, hnone⟩ := registerSchema_eq_ok.mp h
  cases husername : value.username with
  | some username => exact ⟨username, rfl⟩
  | none =>
    cases hname : value.name with
    | some name => exact ⟨name, rfl⟩
    | none => exact absurd ⟨husername, hname⟩ hnone

theorem loginSchema_trimmed {P : Platform} {body : Json} {value : LoginValue}
    (h : loginSchema P body = .ok value) :
    (∀ role ∈ value.role, TrimmedText 1 80 role) ∧
      ∀ role ∈ value.targetRole, TrimmedText 1 80 role := by
  obtain ⟨fields, -, -, -, hrole, htarget, -⟩ := loginSchema_eq_ok.mp h
  exact ⟨trimmed_of_optional rfl (.inl rfl) rfl hrole,
    trimmed_of_optional rfl (.inl rfl) rfl htarget⟩

theorem TrimmedText.ne_empty {low high : ℕ} {text : String} (h : TrimmedText low high text)
    (hlow : 0 < low) : text ≠ "" := by
  intro hempty
  have hlength := h.low_le
  rw [hempty, show jsLength "" = 0 from rfl] at hlength
  omega

/-- The one of two texts that is given first. -/
theorem trimmed_or {low high : ℕ} {a b : Option String} {text : String}
    (ha : ∀ text ∈ a, TrimmedText low high text) (hb : ∀ text ∈ b, TrimmedText low high text)
    (h : a.or b = some text) : TrimmedText low high text := by
  rcases Option.or_eq_some_iff.mp h with h | ⟨-, h⟩
  · exact ha text h
  · exact hb text h

/-- The handlers' `||` on accepted texts takes the first one that is given. -/
theorem trim_orElse {low high : ℕ} {a b : Option String} {default : String} (hlow : 0 < low)
    (ha : ∀ text ∈ a, TrimmedText low high text) (hb : ∀ text ∈ b, TrimmedText low high text)
    (hdefault : trim default = default) :
    trim (orElse a (orElse b default)) = (a.or b).getD default := by
  cases a with
  | some text =>
    have htext := ha text rfl
    rw [orElse_some, if_neg (htext.ne_empty hlow), htext.trim_eq]
    rfl
  | none =>
    cases b with
    | some text =>
      have htext := hb text rfl
      rw [orElse_none, orElse_some, if_neg (htext.ne_empty hlow), htext.trim_eq]
      rfl
    | none => exact hdefault

/-! ## How a request is answered -/

section Answers

variable {P : Platform} {cfg : Config} {s : MemoryState} {req : Request}

/-- A request that is neither an accepted registration nor an accepted login leaves the users
alone. -/
theorem users_next_other (hregister : req.registration P = none) (hlogin : req.login P = none) :
    (s.next P cfg req).users = s.users := by
  rcases next_cases P cfg s req with
    h | ⟨value, ⟨body, hp, he, hv, -⟩, -⟩ | ⟨value, user, ⟨body, hp, he, hv, -⟩, -⟩ |
      ⟨value, user, -, h⟩
  · rw [h]
  · rw [registration_eq_some.mpr ⟨body, hp, he, hv⟩] at hregister
    cases hregister
  · rw [login_eq_some.mpr ⟨body, hp, he, hv⟩] at hlogin
    cases hlogin
  · rw [h]
    rfl

variable (cfg s) in
/-- An accepted registration creates its user, or is answered 409. -/
theorem respond_registration {value : RegisterValue} (hv : req.registration P = some value) :
    (s.Registers P req value ∧ ∃ token,
      s.respond P cfg req = [⟨201, .session token (sanitizeUser (createdUser P req value))⟩]) ∨
    ((s.next P cfg req).users = s.users ∧
      s.respond P cfg req = [⟨409, .error "Email already registered"⟩]) := by
  obtain ⟨body, hp, he, hschema⟩ := registration_eq_some.mp hv
  have hexec : (serve P cfg req).exec (memoryStore P) s =
      (register P cfg req body).exec (memoryStore P) s := by
    simp only [serve, hp, routers, he]
  unfold MemoryState.next MemoryState.respond
  rw [hexec, exec_register, hschema]
  cases hu : s.userByEmail P value.email with
  | none =>
    left
    refine ⟨⟨body, hp, he, hschema, hu⟩,
      signToken P cfg (createdUser P req value) req.seeds.signedAt, ?_⟩
    simp only [hu]
  | some user =>
    right
    simp only [hu]
    exact ⟨trivial, trivial⟩

variable (cfg s) in
/-- An accepted login is answered 200 for the user with its email, whose role it sets when it gives
one, or it is answered 401. -/
theorem respond_login_cases {value : LoginValue} (hv : req.login P = some value) :
    (∃ user token u, s.userByEmail P value.email = some user ∧ u.id = user.id ∧
      s.respond P cfg req = [⟨200, .session token (sanitizeUser u)⟩] ∧
      (s.next P cfg req).users =
        if requestedRole value ≠ "" ∧ requestedRole value ≠ user.role then
          (s.setRole user.id (requestedRole value)).users else s.users) ∨
    ((s.next P cfg req).users = s.users ∧
      s.respond P cfg req = [⟨401, .error "Invalid email or password"⟩]) := by
  obtain ⟨body, hp, he, hschema⟩ := login_eq_some.mp hv
  have hexec : (serve P cfg req).exec (memoryStore P) s =
      (loginFound P cfg req value (s.userByEmail P value.email)).exec (memoryStore P) s := by
    simp only [serve, hp, routers, he, exec_login, hschema]
  unfold MemoryState.next MemoryState.respond
  rw [hexec]
  cases hu : s.userByEmail P value.email with
  | none =>
    right
    exact ⟨rfl, rfl⟩
  | some user =>
    rw [exec_loginFound]
    split
    · right
      exact ⟨rfl, rfl⟩
    · left
      split
      · -- the role is stored for the user found under the id
        rename_i hrole
        obtain ⟨u, hfound⟩ : ∃ u, s.userById user.id = some u := by
          apply Option.isSome_iff_exists.mp
          apply List.find?_isSome.mpr
          exact ⟨user, mem_of_userByEmail hu, by simp⟩
        have hid : u.id = user.id := Keyed.key_of_lookup hfound
        rw [hfound, Option.map_some, exec_loginAnswer_some]
        refine ⟨user, _, { u with role := requestedRole value }, rfl, hid, rfl, ?_⟩
        rw [if_pos hrole]
      · rename_i hrole
        rw [exec_loginAnswer_some]
        refine ⟨user, _, user, rfl, rfl, rfl, ?_⟩
        rw [if_neg hrole]

/-! ## What a request changes -/

theorem registered_eq_none (hregister : req.registration P = none) (id : String)
    (responses : List Response) : registered P id (req, responses) = none := by
  unfold registered
  split
  · exact hregister
  · rfl

theorem loggedIn_eq_none (hlogin : req.login P = none) (id : String) (responses : List Response) :
    loggedIn P id (req, responses) = none := by
  unfold loggedIn
  split
  · exact hlogin
  · rfl

/-- A request that is not answered with a session gives nothing. -/
theorem given_eq_none {responses : List Response}
    (h : ∀ status, sessionUser status responses = none) (id : String) :
    registered P id (req, responses) = none ∧ loggedIn P id (req, responses) = none := by
  unfold registered loggedIn
  rw [h, h]
  exact ⟨rfl, rfl⟩

theorem afterEntry_eq_self {entry : Request × List Response} {u : User}
    (h : loggedIn P u.id entry = none) : u.afterEntry P entry = u := by
  unfold User.afterEntry roleOfLogin
  rw [h]
  rfl

theorem map_afterEntry_eq_self {entry : Request × List Response} {users : List User}
    (h : ∀ u ∈ users, loggedIn P u.id entry = none) :
    users.map (User.afterEntry P entry) = users := by
  rw [List.map_congr_left fun u hu => afterEntry_eq_self (h u hu), List.map_id']

/-- The role that an accepted login asks for is the one it gives. -/
theorem requestedRole_eq {value : LoginValue} (hv : req.login P = some value) :
    requestedRole value = (value.role.or value.targetRole).getD "" := by
  obtain ⟨body, -, -, hschema⟩ := login_eq_some.mp hv
  obtain ⟨hrole, htarget⟩ := loginSchema_trimmed hschema
  exact trim_orElse Nat.one_pos hrole htarget rfl

theorem role_ne_empty {value : LoginValue} (hv : req.login P = some value) {role : String}
    (hgiven : value.role.or value.targetRole = some role) : role ≠ "" := by
  obtain ⟨body, -, -, hschema⟩ := login_eq_some.mp hv
  obtain ⟨hrole, htarget⟩ := loginSchema_trimmed hschema
  exact (trimmed_or hrole htarget hgiven).ne_empty Nat.one_pos

theorem roleOfLogin_of_session {value : LoginValue} (hv : req.login P = some value)
    {token : String} {u : User} (id : String) :
    roleOfLogin P id (req, [⟨200, .session token (sanitizeUser u)⟩]) =
      if u.id = id then value.role.or value.targetRole else none := by
  unfold roleOfLogin loggedIn
  by_cases hid : u.id = id
  · simp [sessionUser, sanitizeUser, hid, hv]
  · simp [sessionUser, sanitizeUser, hid]

/-- A successful login sets the role that it gives, in the record of its user. -/
theorem users_login {value : LoginValue} (hv : req.login P = some value) {user : User}
    (hmem : user ∈ s.users) (hids : (s.users.map User.id).Nodup) {responses : List Response}
    {token : String} {u : User} (hid : u.id = user.id)
    (hresponses : responses = [⟨200, .session token (sanitizeUser u)⟩]) :
    (if requestedRole value ≠ "" ∧ requestedRole value ≠ user.role then
      (s.setRole user.id (requestedRole value)).users else s.users) =
        s.users.map (User.afterEntry P (req, responses)) := by
  have hafter : ∀ x, User.afterEntry P (req, responses) x =
      match (if u.id = x.id then value.role.or value.targetRole else none : Option String) with
      | none => x
      | some role => { x with role } := by
    intro x
    rw [hresponses, User.afterEntry, roleOfLogin_of_session hv]
  rw [requestedRole_eq hv]
  cases hgiven : value.role.or value.targetRole with
  | none =>
    rw [if_neg (by simp)]
    have hself : ∀ x ∈ s.users, User.afterEntry P (req, responses) x = x := by
      intro x _
      rw [hafter, hgiven, ite_self]
    rw [List.map_congr_left hself, List.map_id']
  | some role =>
    have hset : (s.setRole user.id role).users =
        s.users.map (User.afterEntry P (req, responses)) := by
      show Keyed.update User.id user.id _ s.users = _
      rw [Keyed.update_eq_map hids]
      apply List.map_congr_left
      intro x _
      rw [hafter, hgiven, hid]
      by_cases hx : x.id = user.id
      · rw [if_pos hx, if_pos hx.symm]
      · rw [if_neg hx, if_neg (Ne.symm hx)]
    show (if role ≠ "" ∧ role ≠ user.role then (s.setRole user.id role).users else s.users) = _
    split
    · exact hset
    · -- the user has the role already
      rename_i hsame
      have hrole : role = user.role := by
        by_contra hne
        exact hsame ⟨role_ne_empty hv hgiven, hne⟩
      have hself : ∀ x ∈ s.users, User.afterEntry P (req, responses) x = x := by
        intro x hx
        rw [hafter, hgiven, hid]
        by_cases hxid : user.id = x.id
        · have hxuser : user = x := Keyed.eq_of_mem_of_key hids hmem hx hxid
          rw [if_pos hxid, hrole, hxuser]
        · rw [if_neg hxid]
      rw [List.map_congr_left hself, List.map_id']

/-- How a request with its responses changes the records: a login of a user sets the role that it
gives, and a registration appends the records that were created. -/
structure RecordsFollow (P : Platform) (s s' : MemoryState) (entry : Request × List Response)
    (created : List User) : Prop where
  users : s'.users = s.users.map (User.afterEntry P entry) ++ created
  existing : ∀ u ∈ s.users, registered P u.id entry = none
  registered : ∀ u ∈ created, ∃ value, s.Registers P entry.1 value ∧
    u = createdUser P entry.1 value ∧ registered P u.id entry = some value

/-- A request that gives nothing changes no record. -/
theorem recordsFollow_of_given {entry : Request × List Response} {s' : MemoryState}
    (husers : s'.users = s.users)
    (hnone : ∀ id, registered P id entry = none ∧ loggedIn P id entry = none) :
    RecordsFollow P s s' entry [] where
  users := by
    rw [map_afterEntry_eq_self fun u _ => (hnone u.id).2, husers, List.append_nil]
  existing u _ := (hnone u.id).1
  registered := nofun

theorem recordsFollow_registration {value : RegisterValue} (hv : req.registration P = some value)
    (hregisters : s.Registers P req value) {token : String}
    (hids : ((s.addUser (createdUser P req value)).users.map User.id).Nodup) :
    RecordsFollow P s (s.addUser (createdUser P req value))
      (req, [⟨201, .session token (sanitizeUser (createdUser P req value))⟩])
      [createdUser P req value] where
  users := by
    rw [map_afterEntry_eq_self fun u _ => rfl]
    rfl
  existing u hu := by
    -- the id of the new user is no earlier one
    have hnew : (createdUser P req value).id ≠ u.id := by
      intro hid
      rw [MemoryState.addUser, List.map_append] at hids
      exact (List.nodup_append.mp hids).2.2 _ (List.mem_map_of_mem hu) _
        (List.mem_singleton.mpr rfl) hid.symm
    simp [LanguageGuru.registered, sessionUser, sanitizeUser, hnew]
  registered u hu := by
    rw [List.mem_singleton.mp hu]
    exact ⟨value, hregisters, rfl, by simp [LanguageGuru.registered, sessionUser, sanitizeUser, hv]⟩

/-- **A request changes the records as its responses say.** -/
theorem recordsFollow_next (hids : ((s.next P cfg req).users.map User.id).Nodup) :
    ∃ created, RecordsFollow P s (s.next P cfg req) (req, s.respond P cfg req) created := by
  have hids' : (s.users.map User.id).Nodup := hids.sublist (ids_after P cfg s [req]).sublist
  cases hregister : req.registration P with
  | some value =>
    rcases respond_registration cfg s hregister with
      ⟨hregisters, token, hrespond⟩ | ⟨husers, hrespond⟩
    · rw [next_of_registers hregisters] at hids ⊢
      rw [hrespond]
      exact ⟨_, recordsFollow_registration hregister hregisters hids⟩
    · rw [hrespond]
      exact ⟨[], recordsFollow_of_given husers (given_eq_none fun _ => rfl)⟩
  | none =>
    cases hlogin : req.login P with
    | some value =>
      rcases respond_login_cases cfg s hlogin with
        ⟨user, token, u, huser, hid, hrespond, husers⟩ | ⟨husers, hrespond⟩
      · refine ⟨[], ?_, fun u _ => registered_eq_none hregister u.id _, nofun⟩
        rw [husers, List.append_nil]
        exact users_login hlogin (mem_of_userByEmail huser) hids' hid hrespond
      · rw [hrespond]
        exact ⟨[], recordsFollow_of_given husers (given_eq_none fun _ => rfl)⟩
    | none =>
      refine ⟨[], recordsFollow_of_given (users_next_other hregister hlogin) ?_⟩
      intro id
      exact ⟨registered_eq_none hregister id _, loggedIn_eq_none hlogin id _⟩

end Answers

/-! ## The records of a run -/

/-- A record is well formed, and its username and role are the ones given last. -/
structure RecordFollows (P : Platform) (transcript : List (Request × List Response)) (u : User) :
    Prop where
  wellFormed : u.WellFormed P
  username : lastGiven (usernameGiven P u.id) (demoField u.id "demo") transcript = some u.username
  role : lastGiven (roleGiven P u.id) (demoField u.id "Software Engineer") transcript = some u.role

section Runs

variable {P : Platform} {cfg : Config} {transcript : List (Request × List Response)}

theorem trimmed_demo : TrimmedText 2 80 "demo" := ⟨by decide, by decide, by decide⟩

theorem trimmed_softwareEngineer : TrimmedText 1 80 "Software Engineer" :=
  ⟨by decide, by decide, by decide⟩

theorem recordFollows_demo (salt : String) (now : Time)
    (hdemo : P.toLowerCase "demo@languageguru.app" = "demo@languageguru.app") :
    RecordFollows P [] (demoUser P "u_demo" salt now) where
  wellFormed := ⟨hdemo, trimmed_demo, trimmed_softwareEngineer⟩
  username := rfl
  role := rfl

/-- A role that a login gives is trimmed and in its bounds. -/
theorem trimmed_of_roleOfLogin {id role : String} {entry : Request × List Response}
    (h : roleOfLogin P id entry = some role) : TrimmedText 1 80 role := by
  obtain ⟨value, hlogged, hgiven⟩ := Option.bind_eq_some_iff.mp h
  have hv : entry.1.login P = some value := by
    unfold loggedIn at hlogged
    split at hlogged
    · exact hlogged
    · cases hlogged
  obtain ⟨body, -, -, hschema⟩ := login_eq_some.mp hv
  obtain ⟨hrole, htarget⟩ := loginSchema_trimmed hschema
  exact trimmed_or hrole htarget hgiven

/-- A record after a request that did not register it. -/
theorem RecordFollows.afterEntry {u : User} (h : RecordFollows P transcript u)
    {entry : Request × List Response} (hnone : registered P u.id entry = none) :
    RecordFollows P (transcript ++ [entry]) (u.afterEntry P entry) := by
  have husername : usernameGiven P u.id entry = none := by
    rw [usernameGiven, hnone]
    rfl
  have hrole : roleGiven P u.id entry = roleOfLogin P u.id entry := by
    rw [roleGiven, hnone]
    rfl
  have hlast := h.role
  have hlast' := h.username
  cases hgiven : roleOfLogin P u.id entry with
  | none =>
    have hself : u.afterEntry P entry = u := by
      rw [User.afterEntry, hgiven]
    rw [hself]
    refine ⟨h.wellFormed, ?_, ?_⟩
    · rw [lastGiven_snoc, husername]
      exact hlast'
    · rw [lastGiven_snoc, hrole, hgiven]
      exact hlast
  | some role =>
    have hset : u.afterEntry P entry = { u with role } := by
      rw [User.afterEntry, hgiven]
    rw [hset]
    refine ⟨⟨h.wellFormed.email, h.wellFormed.username, trimmed_of_roleOfLogin hgiven⟩, ?_, ?_⟩
    · rw [lastGiven_snoc, husername]
      exact hlast'
    · rw [lastGiven_snoc, hrole, hgiven]
      rfl

theorem orElse_empty (a : Option String) : orElse a "" = a.getD "" := by
  cases a with
  | none => rfl
  | some text =>
    rw [orElse_some]
    split
    · rename_i hempty
      exact hempty.symm
    · rfl

/-- A record after the request that registered it. -/
theorem recordFollows_created (hlower : ∀ e, P.toLowerCase (P.toLowerCase e) = P.toLowerCase e)
    {s : MemoryState} {entry : Request × List Response} {value : RegisterValue}
    (hregisters : s.Registers P entry.1 value)
    (hregistered : registered P (createdUser P entry.1 value).id entry = some value) :
    RecordFollows P (transcript ++ [entry]) (createdUser P entry.1 value) := by
  obtain ⟨body, -, -, hschema, -⟩ := hregisters
  obtain ⟨husername, hname, hrole, htarget⟩ := registerSchema_trimmed hschema
  obtain ⟨username, hgiven⟩ := registerSchema_named hschema
  have husername_eq : (createdUser P entry.1 value).username = username := by
    show trim (orElse value.username (value.name.getD "")) = username
    rw [← orElse_empty, trim_orElse Nat.two_pos husername hname rfl, hgiven]
    rfl
  have hrole_eq : (createdUser P entry.1 value).role =
      (value.role.or value.targetRole).getD "Software Engineer" :=
    trim_orElse Nat.one_pos hrole htarget trimmed_softwareEngineer.trim_eq
  have hrole_trimmed :
      TrimmedText 1 80 ((value.role.or value.targetRole).getD "Software Engineer") := by
    cases hor : value.role.or value.targetRole with
    | none => exact trimmed_softwareEngineer
    | some role => exact trimmed_or hrole htarget hor
  refine ⟨⟨hlower value.email, ?_, ?_⟩, ?_, ?_⟩
  · rw [husername_eq]
    exact trimmed_or husername hname hgiven
  · rw [hrole_eq]
    exact hrole_trimmed
  · rw [lastGiven_snoc, usernameGiven, hregistered, Option.bind_some, hgiven, husername_eq]
    rfl
  · rw [lastGiven_snoc, roleGiven, hregistered, Option.map_some, hrole_eq]
    rfl

variable {catalogue : List CoreLesson} {salt : String} {now : Time}

/-- The records of a run follow its requests. -/
theorem recordFollows_after (hlower : ∀ e, P.toLowerCase (P.toLowerCase e) = P.toLowerCase e)
    (hdemo : P.toLowerCase "demo@languageguru.app" = "demo@languageguru.app") (reqs : List Request)
    (hids : (((createMemoryStore P catalogue salt now).after P cfg reqs).users.map
      User.id).Nodup) :
    ∀ u ∈ ((createMemoryStore P catalogue salt now).after P cfg reqs).users,
      RecordFollows P ((createMemoryStore P catalogue salt now).transcript P cfg reqs) u := by
  induction reqs using List.reverseRecOn with
  | nil =>
    intro u hu
    rw [List.mem_singleton.mp hu]
    exact recordFollows_demo salt now hdemo
  | append_singleton reqs req ih =>
    rw [MemoryState.after_snoc] at hids ⊢
    rw [transcript_snoc]
    have hids' := hids.sublist (ids_after P cfg _ [req]).sublist
    obtain ⟨created, hfollow⟩ := recordsFollow_next hids
    intro u hu
    rw [hfollow.users] at hu
    rcases List.mem_append.mp hu with hold | hnew
    · -- an earlier record, with the role that the request gives
      obtain ⟨u₀, hu₀, rfl⟩ := List.mem_map.mp hold
      exact (ih hids' u₀ hu₀).afterEntry (hfollow.existing u₀ hu₀)
    · obtain ⟨value, hregisters, rfl, hregistered⟩ := hfollow.registered u hnew
      exact recordFollows_created hlower hregisters hregistered

end Runs

/-- **The records of the users are well formed and change only as asked.** After every run from a
fresh memory store, each record is well formed and has the username and the role that were given
last; and every request of the run leaves an existing record as it is, except that a login that is
answered 200 for its user sets the role that it gives. Drawn ids are distinct. -/
theorem user_records_follow_requests {P : Platform} {cfg : Config} {catalogue : List CoreLesson}
    {salt : String} {now : Time} {reqs : List Request}
    (hlower : ∀ e, P.toLowerCase (P.toLowerCase e) = P.toLowerCase e)
    (hdemo : P.toLowerCase "demo@languageguru.app" = "demo@languageguru.app")
    (hids : (((createMemoryStore P catalogue salt now).after P cfg reqs).users.map
      User.id).Nodup) :
    let s₀ := createMemoryStore P catalogue salt now
    (∀ u ∈ (s₀.after P cfg reqs).users, RecordFollows P (s₀.transcript P cfg reqs) u) ∧
      ∀ pre req, pre ++ [req] <+: reqs → ∀ (i : ℕ) (u : User),
        (s₀.after P cfg pre).users[i]? = some u →
        (s₀.after P cfg (pre ++ [req])).users[i]? =
          some (u.afterEntry P (req, (s₀.after P cfg pre).respond P cfg req)) := by
  intro s₀
  refine ⟨recordFollows_after hlower hdemo reqs hids, ?_⟩
  rintro pre req ⟨post, rfl⟩ i u hu
  rw [MemoryState.after_append] at hids
  have hids' := hids.sublist (ids_after P cfg (s₀.after P cfg (pre ++ [req])) post).sublist
  rw [MemoryState.after_snoc] at hids' ⊢
  obtain ⟨created, hfollow⟩ := recordsFollow_next hids'
  have hlt : i < (s₀.after P cfg pre).users.length := (List.getElem?_eq_some_iff.mp hu).1
  rw [hfollow.users, List.getElem?_append_left (by simpa using hlt), List.getElem?_map, hu]
  rfl

/-- A registration without a role, a login that asks for one, one with a wrong password, and one
that asks for none. -/
def adaCareer : List Request :=
  [plainRegistration "  ada " "Ada@Example.com" "secret1" "u_1",
    plainRoleLogin "ada@example.com" "secret1" " Data Analyst ",
    plainRoleLogin "ada@example.com" "secret2" "Product Manager",
    plainLogin "ada@example.com" "secret1"]

theorem ada_keeps_her_last_role :
    let s₀ := createMemoryStore plainPlatform [] "salt" 0
    (s₀.after plainPlatform plainConfig adaCareer).users.map (fun u => (u.username, u.role)) =
        [("demo", "Software Engineer"), ("ada", "Data Analyst")] ∧
      ∀ u ∈ (s₀.after plainPlatform plainConfig adaCareer).users,
        RecordFollows plainPlatform (s₀.transcript plainPlatform plainConfig adaCareer) u := by
  intro s₀
  have hids : ((s₀.after plainPlatform plainConfig adaCareer).users.map User.id).Nodup := by
    decide +kernel
  refine ⟨by decide +kernel, ?_⟩
  exact (user_records_follow_requests plain_toLowerCase_idem (by decide) hids).1

end LanguageGuru
