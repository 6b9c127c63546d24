import LanguageGuru.Backend.Accounts
import LanguageGuru.Backend.Content
import LanguageGuru.Backend.PlainPlatform

/-!
# Authentication

Every token that a run issues names the account of the response it is sent in, and is accepted for
that account until it expires. A request to a learning route with any other header is answered 401
and changes nothing, unless the header has a live token that was signed outside the run for one of
the accounts. The demo account has the same id in every process, so that its tokens outlive one.

## Main definitions

* `Request.subject`: the id that the token of a request stands for
* `Request.ReachesLearning`: the request reaches a learning route
* `IssuedTo`: a token was sent to a user in the course of a run
* `Request.LogsIn`: a login with an email and a password, and with any roles that are accepted

## Main results

* `respond_session`: the token of a response is signed for the user the response shows
* `accounts_authenticate`: accounts persist, log in with their password, and authenticate with
  their tokens; requests without such a token are refused
* `earlier_token_accepted`: a token that an earlier process signed for the demo account is accepted
-/

namespace LanguageGuru

open Process

variable {P : Platform} {cfg : Config} {s : MemoryState}

/-! ## The header -/

theorem bearerToken_eq_some {header token : String} :
    bearerToken header = some token ↔ header = "Bearer " ++ token := by
  have hlen : "Bearer ".toList.length = 7 := rfl
  unfold bearerToken
  constructor
  · intro h
    split_ifs at h with hp
    obtain ⟨rest, hrest⟩ := List.isPrefixOf_iff_prefix.mp hp
    have hdrop : header.toList.drop 7 = rest := by rw [← hrest, ← hlen, List.drop_left]
    obtain rfl := Option.some.inj h
    have hback : (String.ofList rest).toList = rest := String.toList_ofList
    rw [hdrop, ← String.toList_inj, String.toList_append, hback, hrest]
  · rintro rfl
    rw [String.toList_append, if_pos (List.isPrefixOf_iff_prefix.mpr (List.prefix_append _ _)),
      ← hlen, List.drop_left, String.ofList_toList]

/-- A user is identified by a header with an accepted token whose subject is its id. -/
theorem identify_eq_ok {req : Request} {token : String} {payload : TokenPayload} {user : User}
    (hh : req.authorization = some ("Bearer " ++ token)) (ht : token ≠ "")
    (hv : P.jwtVerify token cfg.jwtSecret req.seeds.verifiedAt = some payload)
    (hu : s.userById payload.sub = some user) : s.identify P cfg req = .ok user := by
  have hb : bearerToken (req.authorization.getD "") = some token := by
    rw [hh]
    exact bearerToken_eq_some.mpr rfl
  simp only [MemoryState.identify, hb, if_neg ht, hv, hu]

/-- A request from whose header a token was read carries that token. -/
theorem authorization_of_bearerToken {req : Request} {token : String}
    (h : bearerToken (req.authorization.getD "") = some token) :
    req.authorization = some ("Bearer " ++ token) := by
  have hheader := bearerToken_eq_some.mp h
  cases ha : req.authorization with
  | none =>
    -- no header reads as the empty text, which starts with no "Bearer "
    rw [ha] at hheader
    exact absurd hheader (by simp)
  | some header =>
    rw [ha] at hheader
    exact congrArg some hheader

/-- An identified user carries an accepted token. -/
theorem of_identify_eq_ok {req : Request} {user : User} (h : s.identify P cfg req = .ok user) :
    ∃ token payload, req.authorization = some ("Bearer " ++ token) ∧
      P.jwtVerify token cfg.jwtSecret req.seeds.verifiedAt = some payload ∧
      s.userById payload.sub = some user := by
  unfold MemoryState.identify at h
  cases hb : bearerToken (req.authorization.getD "") with
  | none => simp [hb] at h
  | some token =>
    rw [hb] at h
    dsimp only at h
    split_ifs at h
    cases hv : P.jwtVerify token cfg.jwtSecret req.seeds.verifiedAt with
    | none => simp [hv] at h
    | some payload =>
      rw [hv] at h
      dsimp only at h
      cases hu : s.userById payload.sub with
      | none => simp [hu] at h
      | some u =>
        rw [hu] at h
        obtain rfl := Except.ok.inj h
        exact ⟨token, payload, authorization_of_bearerToken hb, hv, hu⟩

/-- The subject of the accepted token that the request carries. -/
def Request.subject (P : Platform) (cfg : Config) (req : Request) : Option String :=
  match bearerToken (req.authorization.getD "") with
  | none => none
  | some token =>
    if token = "" then none
    else (P.jwtVerify token cfg.jwtSecret req.seeds.verifiedAt).map TokenPayload.sub

/-- A request is identified by its subject alone. -/
theorem identify_of_subject (P : Platform) (cfg : Config) (req : Request) :
    (∃ message, req.subject P cfg = none ∧
      ∀ s : MemoryState, s.identify P cfg req = .error message) ∨
    ∃ id, req.subject P cfg = some id ∧ ∀ s : MemoryState, s.identify P cfg req =
      match s.userById id with
      | none => .error "Unauthorized"
      | some user => .ok user := by
  unfold Request.subject MemoryState.identify
  cases bearerToken (req.authorization.getD "") with
  | none => exact .inl ⟨_, rfl, fun _ => rfl⟩
  | some token =>
    dsimp only
    split_ifs
    · exact .inl ⟨_, rfl, fun _ => rfl⟩
    · cases P.jwtVerify token cfg.jwtSecret req.seeds.verifiedAt with
      | none => exact .inl ⟨_, rfl, fun _ => rfl⟩
      | some payload => exact .inr ⟨_, rfl, fun _ => rfl⟩

/-- The middleware answers at once, or it looks the subject up. -/
theorem authMiddleware_cases (P : Platform) (cfg : Config) (req : Request) :
    (req.subject P cfg = none ∧
      ∃ message, ∀ next, authMiddleware P cfg req next = sendJson 401 (.error message)) ∨
    ∃ id, req.subject P cfg = some id ∧ ∀ next, authMiddleware P cfg req next =
      Program.call (.findUserById id) (authenticated next) := by
  unfold Request.subject authMiddleware
  cases bearerToken (req.authorization.getD "") with
  | none => exact .inl ⟨rfl, _, fun _ => rfl⟩
  | some token =>
    dsimp only
    split_ifs
    · exact .inl ⟨rfl, _, fun _ => rfl⟩
    · unfold authenticate
      cases P.jwtVerify token cfg.jwtSecret req.seeds.verifiedAt with
      | none => exact .inl ⟨rfl, _, fun _ => rfl⟩
      | some payload =>
        refine .inr ⟨_, rfl, fun next => ?_⟩
        simp only [Program.await, Program.attempt_call, Program.call_bind,
          Program.attempt_onAnswer_done, Program.done_bind]

/-! ## Learning routes -/

/-- The routes of the learning router. -/
def Endpoint.isLearning : Endpoint → Bool
  | .tracks => true
  | .lessons => true
  | .lesson (some _) => true
  | .postProgress => true
  | .progress => true
  | _ => false

/-- The body is accepted, and the path leads to a learning route. -/
def Request.ReachesLearning (req : Request) : Prop :=
  (∃ body, req.payload = .parsed body) ∧ ∃ e, req.endpoint = some e ∧ e.isLearning = true

/-- Every learning route is behind the authentication middleware. -/
theorem serve_of_reachesLearning (P : Platform) (cfg : Config) {req : Request}
    (h : req.ReachesLearning) : ∃ next, serve P cfg req = authMiddleware P cfg req next := by
  obtain ⟨⟨body, hp⟩, e, he, hl⟩ := h
  simp only [serve, hp, routers, he]
  cases e with
  | tracks => exact ⟨_, rfl⟩
  | lessons => exact ⟨_, rfl⟩
  | lesson id =>
    cases id with
    | none => cases hl
    | some id => exact ⟨_, rfl⟩
  | postProgress => exact ⟨_, rfl⟩
  | progress => exact ⟨_, rfl⟩
  | _ => cases hl

/-- A learning request without an identified user is answered 401 and changes nothing. -/
theorem unauthorized {req : Request} (h : req.ReachesLearning) {message : String}
    (hi : s.identify P cfg req = .error message) :
    s.respond P cfg req = [⟨401, .error message⟩] ∧ s.next P cfg req = s := by
  obtain ⟨next, hn⟩ := serve_of_reachesLearning P cfg h
  simp only [MemoryState.respond, MemoryState.next, hn, exec_authMiddleware, hi, and_self]

/-! ## Issued tokens -/

/-- Responses whose sessions are signed for the user they show. -/
def SignsSessions (P : Platform) (cfg : Config) (req : Request) (sent : List Response) : Prop :=
  ∀ status token user, ⟨status, .session token user⟩ ∈ sent →
    ∃ u, token = signToken P cfg u req.seeds.signedAt ∧ user = sanitizeUser u

theorem signsSessions_other {req : Request} {status : ℕ} {b : Body}
    (hb : ∀ token user, b ≠ .session token user) : SignsSessions P cfg req [⟨status, b⟩] := by
  intro status' token user h
  simp only [List.mem_singleton, Response.mk.injEq] at h
  exact absurd h.2.symm (hb token user)

theorem signsSessions_session {req : Request} {status : ℕ} {u : User} :
    SignsSessions P cfg req
      [⟨status, .session (signToken P cfg u req.seeds.signedAt) (sanitizeUser u)⟩] := by
  intro status' token user h
  simp only [List.mem_singleton, Response.mk.injEq, Body.session.injEq] at h
  exact ⟨u, h.2⟩

theorem signsSessions_loginAnswer {req : Request} (user : Option User) :
    SignsSessions P cfg req ((loginAnswer P cfg req user).exec (memoryStore P) s).sent := by
  cases user with
  | none => exact fun _ _ _ h => nomatch h
  | some u => exact signsSessions_session

/-- The handlers behind the authentication middleware send no session. -/
theorem signsSessions_authMiddleware {req : Request} {next : User → Handler}
    (h : ∀ user, SignsSessions P cfg req ((next user).exec (memoryStore P) s).sent) :
    SignsSessions P cfg req ((authMiddleware P cfg req next).exec (memoryStore P) s).sent := by
  rw [exec_authMiddleware]
  cases s.identify P cfg req with
  | error message => exact signsSessions_other nofun
  | ok user => exact h user

theorem signsSessions_register {req : Request} (body : Json) :
    SignsSessions P cfg req ((register P cfg req body).exec (memoryStore P) s).sent := by
  rw [exec_register]
  cases registerSchema P body.orEmpty with
  | error message => exact signsSessions_other nofun
  | ok value =>
    dsimp only
    cases s.userByEmail P value.email with
    | some u => exact signsSessions_other nofun
    | none => exact signsSessions_session

theorem signsSessions_login {req : Request} (body : Json) :
    SignsSessions P cfg req ((login P cfg req body).exec (memoryStore P) s).sent := by
  rw [exec_login]
  cases loginSchema P body.orEmpty with
  | error message => exact signsSessions_other nofun
  | ok value =>
    dsimp only
    cases s.userByEmail P value.email with
    | none => exact signsSessions_other nofun
    | some user =>
      -- a wrong password, a login that writes another role, and one that keeps the role
      rw [exec_loginFound]
      split_ifs
      · exact signsSessions_other nofun
      · exact signsSessions_loginAnswer _
      · exact signsSessions_loginAnswer _

/-- The token of a response is signed for the user that the response shows. -/
theorem respond_session (req : Request) : SignsSessions P cfg req (s.respond P cfg req) := by
  unfold MemoryState.respond serve
  cases req.payload with
  | refused status => exact signsSessions_other nofun
  | parsed body =>
    unfold routers
    -- only a registration and a login send a session
    cases req.endpoint with
    | none => exact signsSessions_other nofun
    | some e =>
      cases e with
      | health => exact signsSessions_other nofun
      | ready => exact signsSessions_other nofun
      | register => exact signsSessions_register body
      | login => exact signsSessions_login body
      | tracks =>
        refine signsSessions_authMiddleware fun user => ?_
        rw [exec_tracks]
        exact signsSessions_other nofun
      | lessons =>
        refine signsSessions_authMiddleware fun user => ?_
        rw [exec_lessons]
        exact signsSessions_other nofun
      | lesson id =>
        cases id with
        | none => exact signsSessions_other nofun
        | some id =>
          refine signsSessions_authMiddleware fun user => ?_
          rw [exec_lessonById]
          cases s.lessonById id <;> exact signsSessions_other nofun
      | postProgress =>
        refine signsSessions_authMiddleware fun user => ?_
        rw [exec_postProgress]
        cases progressSchema P body.orEmpty with
        | error message => exact signsSessions_other nofun
        | ok value =>
          dsimp only
          cases s.lessonById value.lessonId <;> exact signsSessions_other nofun
      | progress =>
        refine signsSessions_authMiddleware fun user => ?_
        rw [exec_progress]
        exact signsSessions_other nofun

variable (P cfg)

/-- In the course of the run `reqs` from `s₀` a response showed the user with this id together
with this token, signed at `iat`. -/
def MemoryState.IssuedTo (s₀ : MemoryState) (reqs : List Request) (id token : String)
    (iat : Time) : Prop :=
  ∃ pre req status user, pre ++ [req] <+: reqs ∧
    ⟨status, .session token user⟩ ∈ (s₀.after P cfg pre).respond P cfg req ∧ user.id = id ∧
    iat = req.seeds.signedAt

variable {P cfg}

theorem MemoryState.IssuedTo.eq_signToken {s₀ : MemoryState} {reqs : List Request}
    {id token : String} {iat : Time} (h : s₀.IssuedTo P cfg reqs id token iat) :
    ∃ u : User, u.id = id ∧ token = signToken P cfg u iat := by
  obtain ⟨pre, req, status, user, -, hmem, rfl, rfl⟩ := h
  obtain ⟨u, rfl, rfl⟩ := respond_session req status token user hmem
  exact ⟨u, rfl, rfl⟩

/-! ## Logins -/

/-- The request is a login with this email and this password and with roles that `loginSchema`
accepts, or none. -/
def Request.LogsIn (P : Platform) (req : Request) (email password : String) : Prop :=
  ∃ fields, req.payload = .parsed (.obj fields) ∧ req.endpoint = some .login ∧
    emailKey.required P (fields.lookup "email") = .ok email ∧
    fields.lookup "password" = some (.str password) ∧
    (∃ role, (roleKey "role").optional P (fields.lookup "role") = .ok role) ∧
    (∃ role, (roleKey "targetRole").optional P (fields.lookup "targetRole") = .ok role) ∧
    ∀ f ∈ fields, f.1 ∈ ["email", "password", "role", "targetRole"]

/-- `loginSchema` accepts such a login when the password passes its rules. -/
theorem Request.LogsIn.accepted {req : Request} {email password : String}
    (h : req.LogsIn P email password)
    (hpass : passwordKey.required P (some (.str password)) = .ok password) :
    ∃ body value, req.payload = .parsed body ∧ req.endpoint = some .login ∧
      loginSchema P body.orEmpty = .ok value ∧ value.email = email ∧
      value.password = password := by
  obtain ⟨fields, hp, he, hemail, hpassword, ⟨role, hr⟩, ⟨targetRole, ht⟩, hk⟩ := h
  exact ⟨.obj fields, ⟨email, password, role, targetRole⟩, hp, he,
    loginSchema_eq_ok.mpr ⟨fields, rfl, hemail, hpassword ▸ hpass, hr, ht, hk⟩, rfl, rfl⟩

/-! ## Accounts authenticate -/

section Runs

variable {catalogue : List CoreLesson} {salt : String} {now : Time} {reqs : List Request}
  {a : User} {password : String}

/-- An account logs in with its password and any letter-case variant of its email. -/
theorem AccountOf.login_answered
    (hlower : ∀ e, P.toLowerCase (P.toLowerCase e) = P.toLowerCase e)
    (hcompare : ∀ p salt, P.compareSync p (P.hashSync p salt) = true)
    (h : AccountOf P cfg catalogue salt now reqs a password) {req : Request} {email : String}
    (hreq : req.LogsIn P email password) (hemail : P.toLowerCase email = P.toLowerCase a.email) :
    ∃ token user, ((createMemoryStore P catalogue salt now).after P cfg reqs).respond P cfg req =
      [⟨200, .session token user⟩] ∧ user.id = a.id := by
  obtain ⟨body, value, hp, he, hv, rfl, rfl⟩ := hreq.accepted h.password_ok
  obtain ⟨salt', hhash⟩ := h.passwordHash
  obtain ⟨u, hid, hu⟩ := (h.respond_login hlower hp he hv hemail).1 (hhash ▸ hcompare _ _)
  exact ⟨_, sanitizeUser u, hu, hid⟩

/-- An account is identified by its live tokens. -/
theorem AccountOf.identified {Live : Time → Time → Prop} (htoken : TokenLaws P cfg Live)
    (h : AccountOf P cfg catalogue salt now reqs a password) {req : Request} {token : String}
    {iat : Time}
    (hissued : (createMemoryStore P catalogue salt now).IssuedTo P cfg reqs a.id token iat)
    (hlive : Live iat req.seeds.verifiedAt)
    (hheader : req.authorization = some ("Bearer " ++ token)) :
    ∃ user, user.id = a.id ∧
      ((createMemoryStore P catalogue salt now).after P cfg reqs).identify P cfg req =
        .ok user := by
  obtain ⟨u, hid, rfl⟩ := hissued.eq_signToken
  have hv : P.jwtVerify (signToken P cfg u iat) cfg.jwtSecret req.seeds.verifiedAt =
      some ⟨u.id, u.email⟩ := htoken.verify_sign _ hlive
  have hne : signToken P cfg u iat ≠ "" := fun he => by
    rw [he, htoken.verify_empty] at hv
    cases hv
  obtain ⟨v, hv', ha⟩ := h.mem
  obtain ⟨user, huser⟩ : ∃ user, ((createMemoryStore P catalogue salt now).after P cfg
      reqs).userById u.id = some user := by
    rw [← Option.isSome_iff_exists, MemoryState.userById, Keyed.lookup, List.find?_isSome]
    have hvid : v.id = u.id := (congrArg Account.id ha).trans hid.symm
    exact ⟨v, hv', by simp [hvid]⟩
  have huid : user.id = u.id := Keyed.key_of_lookup huser
  exact ⟨user, huid.trans hid, identify_eq_ok hheader hne hv huser⟩

/-- A header that is not a live token of the run identifies nobody, when the live tokens that are
signed for accounts are those of the run. -/
theorem identify_eq_error {Live : Time → Time → Prop} (htoken : TokenLaws P cfg Live)
    {s₀ : MemoryState} {req : Request}
    (hhonest : ∀ payload iat, req.authorization =
        some ("Bearer " ++ P.jwtSign payload cfg.jwtSecret cfg.jwtExpiresIn iat) →
      Live iat req.seeds.verifiedAt → (∃ u ∈ s.users, u.id = payload.sub) →
      ∃ id iat', s₀.IssuedTo P cfg reqs id
        (P.jwtSign payload cfg.jwtSecret cfg.jwtExpiresIn iat) iat')
    (hnone : ¬ ∃ token id iat, req.authorization = some ("Bearer " ++ token) ∧
      s₀.IssuedTo P cfg reqs id token iat ∧ Live iat req.seeds.verifiedAt) :
    ∃ message, s.identify P cfg req = .error message := by
  cases hi : s.identify P cfg req with
  | error message => exact ⟨message, rfl⟩
  | ok user =>
    obtain ⟨token, payload, hheader, hv, huser⟩ := of_identify_eq_ok hi
    obtain ⟨iat, rfl⟩ := htoken.sign_of_verify hv
    have haccount : ∃ u ∈ s.users, u.id = payload.sub :=
      ⟨user, Keyed.mem_of_lookup huser, Keyed.key_of_lookup huser⟩
    obtain ⟨id, iat', hissued⟩ := hhonest payload iat hheader (htoken.live_of_verify hv) haccount
    obtain ⟨u, -, hu⟩ := hissued.eq_signToken
    rw [hu] at hv
    exact absurd ⟨_, id, iat', hheader, hissued, htoken.live_of_verify hv⟩ hnone

end Runs

/-- **Accounts persist and authenticate.** After every run of requests on the memory store, every
account of the run (a) is still there with its id, email, password hash and time of creation,
(b) logs in with its password and any letter-case variant of its email, and (c) is the user of
every protected request with a live token issued to it; and (d) a request to a learning route
without a live token issued in the run is answered 401 and changes nothing, unless it has a live
token that was signed outside the run for an account of the store. -/
theorem accounts_authenticate {P : Platform} {cfg : Config} {Live : Time → Time → Prop}
    (hlower : ∀ e, P.toLowerCase (P.toLowerCase e) = P.toLowerCase e)
    (hcompare : ∀ p salt, P.compareSync p (P.hashSync p salt) = true)
    (htoken : TokenLaws P cfg Live) (catalogue : List CoreLesson) (salt : String) (now : Time)
    (reqs : List Request) :
    let s₀ := createMemoryStore P catalogue salt now
    let s := s₀.after P cfg reqs
    (∀ a password, AccountOf P cfg catalogue salt now reqs a password →
      (∃ u ∈ s.users, u.id = a.id ∧ u.email = a.email ∧ u.passwordHash = a.passwordHash ∧
        u.createdAt = a.createdAt) ∧
      (∀ req email, req.LogsIn P email password → P.toLowerCase email = P.toLowerCase a.email →
        ∃ token user, s.respond P cfg req = [⟨200, .session token user⟩] ∧ user.id = a.id) ∧
      (∀ req token iat, s₀.IssuedTo P cfg reqs a.id token iat →
        Live iat req.seeds.verifiedAt → req.authorization = some ("Bearer " ++ token) →
        ∀ next, ∃ user, user.id = a.id ∧
          (authMiddleware P cfg req next).exec (memoryStore P) s =
            (next user).exec (memoryStore P) s)) ∧
    (∀ req, req.ReachesLearning →
      (∀ payload iat, req.authorization =
          some ("Bearer " ++ P.jwtSign payload cfg.jwtSecret cfg.jwtExpiresIn iat) →
        Live iat req.seeds.verifiedAt → (∃ u ∈ s.users, u.id = payload.sub) →
        ∃ id iat', s₀.IssuedTo P cfg reqs id
          (P.jwtSign payload cfg.jwtSecret cfg.jwtExpiresIn iat) iat') →
      (¬ ∃ token id iat, req.authorization = some ("Bearer " ++ token) ∧
        s₀.IssuedTo P cfg reqs id token iat ∧ Live iat req.seeds.verifiedAt) →
      (∃ message, s.respond P cfg req = [⟨401, .error message⟩]) ∧ s.next P cfg req = s) := by
  intro s₀ s
  refine ⟨fun a password h => ⟨?_, ?_, ?_⟩, ?_⟩
  · -- a later request only changes the role of a user, which is no part of the account
    obtain ⟨u, hu, ha⟩ := h.mem
    simp only [User.account, Account.mk.injEq] at ha
    exact ⟨u, hu, ha⟩
  · exact fun req email hreq hemail => h.login_answered hlower hcompare hreq hemail
  · -- a token names its user, and the user is still in the store
    intro req token iat hissued hlive hheader next
    obtain ⟨user, hid, hi⟩ := h.identified htoken hissued hlive hheader
    exact ⟨user, hid, by rw [exec_authMiddleware, hi]⟩
  · intro req hreq hhonest hnone
    obtain ⟨message, hi⟩ := identify_eq_error (s := s) htoken hhonest hnone
    obtain ⟨hrespond, hnext⟩ := unauthorized hreq hi
    exact ⟨⟨message, hrespond⟩, hnext⟩

/-- **A token of an earlier process is accepted.** The demo account logs in to one process. Another
process, which starts with the same secret, has issued no token, and serves a request with this
token as one of its demo account. -/
theorem earlier_token_accepted :
    let earlier := createMemoryStore plainPlatform coreLessons "pepper" 0
    let logsIn := plainLogin "demo@languageguru.app" "demo1234"
    let token := plainPlatform.jwtSign ⟨"u_demo", "demo@languageguru.app"⟩ plainConfig.jwtSecret
      plainConfig.jwtExpiresIn 0
    let s := createMemoryStore plainPlatform coreLessons "salt" 500
    let req : Request :=
      { plainRequest .get ["api", "progress"] (some ("Bearer " ++ token)) (.obj []) "" with
        seeds := ⟨1000, 1000, 1000, 1000, "", "salt", 1⟩ }
    (∃ user, earlier.respond plainPlatform plainConfig logsIn = [⟨200, .session token user⟩]) ∧
    req.ReachesLearning ∧
    (¬ ∃ token id iat, req.authorization = some ("Bearer " ++ token) ∧
      s.IssuedTo plainPlatform plainConfig [] id token iat ∧
      req.seeds.verifiedAt < iat + plainLifetime) ∧
    s.respond plainPlatform plainConfig req = [⟨200, .progress []⟩] := by
  intro earlier logsIn token s req
  refine ⟨⟨_, rfl⟩, ⟨⟨_, rfl⟩, .progress, rfl, rfl⟩, ?_, ?_⟩
  · rintro ⟨token, id, iat, -, ⟨pre, r, status, user, hprefix, -⟩, -⟩
    simp at hprefix
  · decide +kernel

/-- An account that was registered in small letters logs in with capitals. -/
theorem ada_logs_in_with_capitals :
    let registers := plainRegistration "ada" "ada@example.com" "secret1" "u_1"
    let logsIn := plainLogin "ADA@Example.com" "secret1"
    ∃ token user, ((createMemoryStore plainPlatform [] "salt" 0).after plainPlatform plainConfig
      [registers]).respond plainPlatform plainConfig logsIn = [⟨200, .session token user⟩] ∧
      user.id = "u_1" := by
  intro registers logsIn
  obtain ⟨haccounts, -⟩ := accounts_authenticate plain_toLowerCase_idem
    (fun p salt => (plain_compareSync_hashSync p p salt).mpr rfl) plain_tokenLaws [] "salt" 0
    [registers]
  let value : RegisterValue := ⟨some "ada", none, "ada@example.com", "secret1", none, none⟩
  obtain ⟨-, hlogin, -⟩ := haccounts (createdUser plainPlatform registers value) "secret1"
    (.inr ⟨[], registers, value, List.prefix_rfl, ⟨_, rfl, rfl, rfl, by decide⟩, rfl, rfl⟩)
  refine hlogin logsIn "ADA@Example.com" ⟨_, rfl, rfl, rfl, rfl, ⟨none, rfl⟩, ⟨none, rfl⟩, ?_⟩ ?_
  · simp
  · decide

end LanguageGuru
