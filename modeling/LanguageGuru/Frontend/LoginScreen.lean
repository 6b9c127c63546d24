import LanguageGuru.Backend.UserRecords

/-!
# The login screen

The screen trims the fields and sends the role even when nothing is left of it. The schemas trim
the role once more and then refuse an empty string, so the fallbacks of the handlers for a missing
role are never reached from the screen. Apart from that, what the screen sends is accepted, and the
user has the role of the screen.

## Main definitions

* `LoginScreen`, `LoginScreen.onSubmit`: the fields, and the request they are sent with
* `Request.Carries`: a request of `authRequest` as the server receives it
* `LoginScreen.Valid`: the rules for the fields
* `LoginScreen.Served`: the submission is accepted, and the user has the role of the screen

## Main results

* `registerSchema_onSubmit`, `loginSchema_onSubmit`: what the schemas make of a submission
* `submission_served_iff`: a submission is served exactly when its role is not blank
* `blank_role_refused`: a login without a role
-/

namespace LanguageGuru

open Process

/-- The content of the fields, and whether an account is to be created. -/
structure LoginScreen where
  isRegisterMode : Bool
  username : String
  email : String
  password : String
  role : String

/-- The request is a POST of `authRequest` to an endpoint, with this payload. -/
structure Request.Carries (req : Request) (sent : Endpoint × Json) : Prop where
  endpoint : req.endpoint = some sent.1
  payload : req.payload = .parsed sent.2

namespace LoginScreen

variable (screen : LoginScreen)

/-- The endpoint of the thunk that `onSubmit` dispatches, with the payload. -/
def onSubmit : Endpoint × Json :=
  if screen.isRegisterMode then
    (.register,
      .obj [("username", .str (trim screen.username)), ("email", .str (trim screen.email)),
        ("password", .str screen.password), ("role", .str (trim screen.role))])
  else
    (.login,
      .obj [("email", .str (trim screen.email)), ("password", .str screen.password),
        ("role", .str (trim screen.role))])

/-- The rules for the fields; a role may be blank. -/
structure Valid (P : Platform) : Prop where
  email : trim screen.email ≠ "" ∧ P.isEmail (trim screen.email) = true
  password : 6 ≤ jsLength screen.password ∧ jsLength screen.password ≤ 128
  username : screen.isRegisterMode = true →
    2 ≤ jsLength (trim screen.username) ∧ jsLength (trim screen.username) ≤ 80
  role : jsLength (trim screen.role) ≤ 80

/-- The role that a user should have: the text of the screen, unless it is blank. -/
def resultingRole (default : String) : String :=
  if trim screen.role = "" then default else trim screen.role

section Served

variable (P : Platform) (cfg : Config) (s : MemoryState) (req : Request)

/-- The registration is accepted, and if the email is free it creates an account with the role of
the screen or the default role. -/
def RegistrationServed : Prop :=
  ∃ value, registerSchema P screen.onSubmit.2 = .ok value ∧
    (s.userByEmail P (trim screen.email) = none → ∃ user token,
      (s.next P cfg req).users = s.users ++ [user] ∧
      s.respond P cfg req = [⟨201, .session token (sanitizeUser user)⟩] ∧
      user.role = screen.resultingRole "Software Engineer")

/-- The login is accepted, and with the password of an account it is answered with the account,
which then has the role of the screen or the role that it had. -/
def LoginServed : Prop :=
  ∃ value, loginSchema P screen.onSubmit.2 = .ok value ∧
    ∀ user, s.userByEmail P (trim screen.email) = some user →
      P.compareSync screen.password user.passwordHash = true → ∃ user' token,
        (s.next P cfg req).userById user.id = some user' ∧
        s.respond P cfg req = [⟨200, .session token (sanitizeUser user')⟩] ∧
        user'.role = screen.resultingRole user.role

/-- The submission is accepted, and the user has the role of the screen. -/
def Served : Prop :=
  if screen.isRegisterMode then screen.RegistrationServed P cfg s req
  else screen.LoginServed P cfg s req

end Served

/-! ## What the schemas make of a submission -/

variable {screen} {P : Platform}

/-- The values that `registerSchema` makes of a registration. -/
def registerValue (screen : LoginScreen) : RegisterValue where
  username := some (trim screen.username)
  name := none
  email := trim screen.email
  password := screen.password
  role := some (trim screen.role)
  targetRole := none

/-- The values that `loginSchema` makes of a login. -/
def loginValue (screen : LoginScreen) : LoginValue where
  email := trim screen.email
  password := screen.password
  role := some (trim screen.role)
  targetRole := none

theorem Valid.email_required (h : screen.Valid P) :
    emailKey.required P (some (.str (trim screen.email))) = .ok (trim screen.email) := by
  show emailKey.check P _ = _
  apply StringKey.check_eq_ok.mpr
  refine ⟨rfl, h.email.1, ?_, ?_, fun _ => h.email.2⟩
  · intro n hn
    cases hn
  · intro n hn
    cases hn

theorem Valid.password_required (h : screen.Valid P) :
    passwordKey.required P (some (.str screen.password)) = .ok screen.password := by
  show passwordKey.check P _ = _
  apply StringKey.check_eq_ok.mpr
  refine ⟨rfl, ?_, ?_, ?_, ?_⟩
  · intro hempty
    have hlength := h.password.1
    rw [hempty, show jsLength "" = 0 from rfl] at hlength
    omega
  · intro n hn
    cases hn
    exact h.password.1
  · intro n hn
    cases hn
    exact h.password.2
  · intro hemail
    cases hemail

/-- The rules for a role accept what is left of it after trimming, if anything is. -/
theorem Valid.role_optional (h : screen.Valid P) (hrole : trim screen.role ≠ "") :
    (roleKey "role").optional P (some (.str (trim screen.role))) =
      .ok (some (trim screen.role)) := by
  have hcheck : (roleKey "role").check P (trim screen.role) = .ok (trim screen.role) := by
    apply StringKey.check_eq_ok.mpr
    refine ⟨trim_trim _, hrole, ?_, ?_, ?_⟩
    · intro n hn
      cases hn
    · intro n hn
      cases hn
      exact h.role
    · intro hemail
      cases hemail
  exact StringKey.optional_eq_ok.mpr (.inr ⟨_, _, rfl, hcheck, rfl⟩)

/-- The rules for a name accept what is left of it after trimming. -/
theorem Valid.username_optional (h : screen.Valid P) (hmode : screen.isRegisterMode = true) :
    (nameKey "username").optional P (some (.str (trim screen.username))) =
      .ok (some (trim screen.username)) := by
  obtain ⟨hlow, hhigh⟩ := h.username hmode
  have hcheck : (nameKey "username").check P (trim screen.username) =
      .ok (trim screen.username) := by
    apply StringKey.check_eq_ok.mpr
    refine ⟨trim_trim _, ?_, ?_, ?_, ?_⟩
    · intro hempty
      rw [hempty, show jsLength "" = 0 from rfl] at hlow
      omega
    · intro n hn
      cases hn
      exact hlow
    · intro n hn
      cases hn
      exact hhigh
    · intro hemail
      cases hemail
  exact StringKey.optional_eq_ok.mpr (.inr ⟨_, _, rfl, hcheck, rfl⟩)

/-- A role that is accepted is not blank. -/
theorem role_ne_empty {role : String} {value : Option String}
    (h : (roleKey "role").optional P (some (.str role)) = .ok value) : trim role ≠ "" := by
  obtain ⟨hnone, -⟩ | ⟨s, v, hs, hcheck, -⟩ := StringKey.optional_eq_ok.mp h
  · cases hnone
  · obtain rfl : role = s := Json.str.inj (Option.some.inj hs)
    obtain ⟨hconvert, hne, -⟩ := StringKey.check_eq_ok.mp hcheck
    have htrim : trim role = v := hconvert
    rw [htrim]
    exact hne

theorem onSubmit_register (hmode : screen.isRegisterMode = true) : screen.onSubmit =
    (.register,
      .obj [("username", .str (trim screen.username)), ("email", .str (trim screen.email)),
        ("password", .str screen.password), ("role", .str (trim screen.role))]) := by
  rw [onSubmit, if_pos hmode]

theorem onSubmit_login (hmode : screen.isRegisterMode = false) : screen.onSubmit =
    (.login,
      .obj [("email", .str (trim screen.email)), ("password", .str screen.password),
        ("role", .str (trim screen.role))]) := by
  rw [onSubmit, hmode]
  exact if_neg Bool.false_ne_true

/-- A registration is accepted when its role is not blank. -/
theorem registerSchema_onSubmit (h : screen.Valid P) (hmode : screen.isRegisterMode = true)
    (hrole : trim screen.role ≠ "") :
    registerSchema P screen.onSubmit.2 = .ok screen.registerValue := by
  rw [onSubmit_register hmode]
  apply registerSchema_eq_ok.mpr
  refine ⟨_, rfl, h.username_optional hmode, rfl, h.email_required, h.password_required,
    h.role_optional hrole, rfl, ?_, ?_⟩
  · intro field hfield
    simp only [List.mem_cons, List.not_mem_nil, or_false] at hfield
    rcases hfield with rfl | rfl | rfl | rfl <;> simp
  · rintro ⟨hnone, -⟩
    cases hnone

/-- A login is accepted when its role is not blank. -/
theorem loginSchema_onSubmit (h : screen.Valid P) (hmode : screen.isRegisterMode = false)
    (hrole : trim screen.role ≠ "") :
    loginSchema P screen.onSubmit.2 = .ok screen.loginValue := by
  rw [onSubmit_login hmode]
  apply loginSchema_eq_ok.mpr
  refine ⟨_, rfl, h.email_required, h.password_required, h.role_optional hrole, rfl, ?_⟩
  intro field hfield
  simp only [List.mem_cons, List.not_mem_nil, or_false] at hfield
  rcases hfield with rfl | rfl | rfl <;> simp

/-- A registration that is accepted has a role that is not blank. -/
theorem role_of_registerSchema (hmode : screen.isRegisterMode = true) {value : RegisterValue}
    (h : registerSchema P screen.onSubmit.2 = .ok value) : trim screen.role ≠ "" := by
  rw [onSubmit_register hmode] at h
  obtain ⟨fields, hfields, -, -, -, -, hrole, -⟩ := registerSchema_eq_ok.mp h
  cases hfields
  have htrim : trim (trim screen.role) ≠ "" := role_ne_empty hrole
  rwa [trim_trim] at htrim

theorem role_of_loginSchema (hmode : screen.isRegisterMode = false) {value : LoginValue}
    (h : loginSchema P screen.onSubmit.2 = .ok value) : trim screen.role ≠ "" := by
  rw [onSubmit_login hmode] at h
  obtain ⟨fields, hfields, -, -, hrole, -⟩ := loginSchema_eq_ok.mp h
  cases hfields
  have htrim : trim (trim screen.role) ≠ "" := role_ne_empty hrole
  rwa [trim_trim] at htrim

/-! ## What the handlers make of a submission -/

variable {cfg : Config} {s : MemoryState} {req : Request}

theorem registrationServed (h : screen.Valid P) (hreq : req.Carries screen.onSubmit)
    (hmode : screen.isRegisterMode = true) (hrole : trim screen.role ≠ "") :
    screen.RegistrationServed P cfg s req := by
  have hschema := registerSchema_onSubmit h hmode hrole
  refine ⟨screen.registerValue, hschema, ?_⟩
  intro hfree
  have hendpoint : req.endpoint = some .register := by
    rw [hreq.endpoint, onSubmit_register hmode]
  have hbody : screen.onSubmit.2.orEmpty = screen.onSubmit.2 := by
    rw [onSubmit_register hmode]
    rfl
  have hexec : (serve P cfg req).exec (memoryStore P) s =
      (register P cfg req screen.onSubmit.2).exec (memoryStore P) s := by
    simp only [serve, hreq.payload, routers, hendpoint]
  refine ⟨createdUser P req screen.registerValue, ?_, ?_, ?_, ?_⟩
  · exact signToken P cfg (createdUser P req screen.registerValue) req.seeds.signedAt
  · unfold MemoryState.next
    rw [hexec, exec_register, hbody, hschema]
    simp only [registerValue, hfree]
    rfl
  · unfold MemoryState.respond
    rw [hexec, exec_register, hbody, hschema]
    simp only [registerValue, hfree]
  · show trim (orElse (some (trim screen.role)) _) = screen.resultingRole _
    rw [orElse_some, if_neg hrole, trim_trim, resultingRole, if_neg hrole]

theorem requestedRole_loginValue (hrole : trim screen.role ≠ "") :
    requestedRole screen.loginValue = trim screen.role := by
  show trim (orElse (some (trim screen.role)) _) = _
  rw [orElse_some, if_neg hrole, trim_trim]

theorem loginServed (h : screen.Valid P) (hids : (s.users.map User.id).Nodup)
    (hreq : req.Carries screen.onSubmit) (hmode : screen.isRegisterMode = false)
    (hrole : trim screen.role ≠ "") : screen.LoginServed P cfg s req := by
  have hschema := loginSchema_onSubmit h hmode hrole
  refine ⟨screen.loginValue, hschema, ?_⟩
  intro user hfound hpassword
  have hendpoint : req.endpoint = some .login := by
    rw [hreq.endpoint, onSubmit_login hmode]
  have hbody : screen.onSubmit.2.orEmpty = screen.onSubmit.2 := by
    rw [onSubmit_login hmode]
    rfl
  have hexec : (serve P cfg req).exec (memoryStore P) s =
      (loginFound P cfg req screen.loginValue (some user)).exec (memoryStore P) s := by
    have hlookup : s.userByEmail P screen.loginValue.email = some user := hfound
    simp only [serve, hreq.payload, routers, hendpoint, exec_login, hbody, hschema, hlookup]
  have hid : s.userById user.id = some user := Keyed.lookup_of_mem hids (mem_of_userByEmail hfound)
  have hmatches : ¬ P.compareSync screen.loginValue.password user.passwordHash = false := by
    rw [show screen.loginValue.password = screen.password from rfl, hpassword]
    exact Bool.false_ne_true.symm
  rw [exec_loginFound, if_neg hmatches, requestedRole_loginValue hrole] at hexec
  unfold MemoryState.next MemoryState.respond
  rw [hexec, resultingRole, if_neg hrole]
  by_cases hother : trim screen.role ≠ user.role
  · -- the role is stored for the account
    rw [if_pos ⟨hrole, hother⟩, hid]
    refine ⟨{ user with role := trim screen.role }, _, ?_, rfl, rfl⟩
    show (s.setRole user.id (trim screen.role)).userById user.id = _
    rw [userById_setRole_self, hid]
    rfl
  · rw [if_neg fun hand => hother hand.2]
    exact ⟨user, _, hid, rfl, (not_not.mp hother).symm⟩

/-- **What the login screen sends is served exactly when the role on it is not blank**: it is
accepted, and the user has that role. -/
theorem submission_served_iff (h : screen.Valid P) (hids : (s.users.map User.id).Nodup)
    (hreq : req.Carries screen.onSubmit) :
    screen.Served P cfg s req ↔ trim screen.role ≠ "" := by
  unfold Served
  cases hmode : screen.isRegisterMode with
  | true =>
    constructor
    · rintro ⟨value, hschema, -⟩
      exact role_of_registerSchema hmode hschema
    · exact registrationServed h hreq hmode
  | false =>
    constructor
    · rintro ⟨value, hschema, -⟩
      exact role_of_loginSchema hmode hschema
    · exact loginServed h hids hreq hmode

/-- The screen with the demo account and a role. -/
def demoScreen (role : String) : LoginScreen where
  isRegisterMode := false
  username := ""
  email := "demo@languageguru.app"
  password := "demo1234"
  role := role

theorem demo_login_served :
    (demoScreen " Data Analyst ").Served plainPlatform plainConfig
      (createMemoryStore plainPlatform [] "salt" 0)
      (plainRoleLogin "demo@languageguru.app" "demo1234" "Data Analyst") := by
  have hvalid : (demoScreen " Data Analyst ").Valid plainPlatform := by
    refine ⟨by decide, by decide, ?_, by decide⟩
    intro hmode
    cases hmode
  exact (submission_served_iff hvalid (by decide) ⟨rfl, rfl⟩).mpr (by decide)

/-- **A login with a blank role is refused**, although the handler would leave the role alone. -/
theorem blank_role_refused :
    (demoScreen "  ").Valid plainPlatform ∧
      (plainRoleLogin "demo@languageguru.app" "demo1234" "").Carries (demoScreen "  ").onSubmit ∧
      ¬ (demoScreen "  ").Served plainPlatform plainConfig
        (createMemoryStore plainPlatform [] "salt" 0)
        (plainRoleLogin "demo@languageguru.app" "demo1234" "") := by
  refine ⟨?_, ⟨rfl, rfl⟩, ?_⟩
  · refine ⟨by decide, by decide, ?_, by decide⟩
    intro hmode
    cases hmode
  · rintro ⟨value, hschema, -⟩
    have hrefused : loginSchema plainPlatform (demoScreen "  ").onSubmit.2 =
        .error "\"role\" is not allowed to be empty" := by rfl
    cases hrefused.symm.trans hschema

end LoginScreen

end LanguageGuru
