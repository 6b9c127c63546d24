import LanguageGuru.Backend.Authentication
import LanguageGuru.Backend.MongoInterleavings
import LanguageGuru.Backend.Seeding

/-!
# The lives of a server on one database

A server on the MongoDB store is killed and started again, any number of times, while it seeds or
while it serves requests whose handlers are interleaved. The database is all that it keeps. A client
that was answered with a session relies on it nevertheless: its token is accepted until it expires,
its password logs it in, and nobody else registers its email.

## Main definitions

* `MongoState.Holds`: an account is found by its email and by its id
* `Life`: a start that is killed while it seeds, or one that serves requests until it is killed
* `Honours`: what a client that was answered with a session relies on

## Main results

* `holds_of_session`: the account of a session is in the database
* `honours_of_holds`: an account in the database is honoured
* `linearization_of_lives`: the requests of each life linearize
* `sessions_survive`: sessions are honoured in every later life
-/

namespace LanguageGuru

open Process

variable {P : Platform} {M : Mongoose} {cfg : Config} {Live : Time → Time → Prop}
  {s s' : MongoState} {a : Account} {req : Request}

/-! ## Accounts in the database -/

/-- The account is found by its email and by its id. -/
structure MongoState.Holds (P : Platform) (s : MongoState) (a : Account) : Prop where
  byEmail : ∃ u, s.userByEmail P a.email = some u ∧ u.account = a
  byId : ∃ u, s.userById a.id = some u ∧ u.account = a

/-- An account that is there stays there while the accounts keep their positions. -/
theorem MongoState.Holds.mono (h : s.Holds P a)
    (hs : s.users.map User.account <+: s'.users.map User.account) : s'.Holds P a := by
  obtain ⟨⟨u, hu, ha⟩, v, hv, ha'⟩ := h
  obtain ⟨u', hu', hsame⟩ :=
    find?_of_accounts hs (fun b => b.email = P.toLowerCase a.email) hu
  obtain ⟨v', hv', hsame'⟩ := find?_of_accounts hs (fun b => b.id = a.id) hv
  exact ⟨⟨u', hu', hsame.trans ha⟩, v', hv', hsame'.trans ha'⟩

theorem MongoState.email_of_userByEmail {email : String} {u : User}
    (h : s.userByEmail P email = some u) : u.email = P.toLowerCase email :=
  of_decide_eq_true (List.find?_eq_some_iff_append.mp h).1

/-- The account of a user that is found by email, when the ids are distinct. -/
theorem MongoState.holds_of_userByEmail (hlower : ∀ e, P.toLowerCase (P.toLowerCase e) =
    P.toLowerCase e) (hids : s.ids.Nodup) {email : String} {u : User}
    (hu : s.userByEmail P email = some u) : s.Holds P u.account := by
  have hemail := MongoState.email_of_userByEmail hu
  refine ⟨⟨u, ?_, rfl⟩, u, Keyed.lookup_of_mem hids (List.mem_of_find?_eq_some hu), rfl⟩
  show (s.users.find? fun v => v.email = P.toLowerCase u.email) = some u
  rw [hemail, hlower]
  exact hu

/-- The email in lower case and the password with which a request registers or logs in. -/
def Request.credentials (P : Platform) (req : Request) : Option (String × String) :=
  match req.registration P with
  | some value => some (P.toLowerCase value.email, value.password)
  | none => (req.login P).map fun value => (P.toLowerCase value.email, value.password)

/-- The response shows no session. -/
def Response.HasNoSession (r : Response) : Prop := ∀ token view, r.body ≠ .session token view

/-! ## A session that is answered -/

/-- The session is that of an account that the database holds, with the email and the password of
the request. -/
structure SessionOf (P : Platform) (cfg : Config) (s : MongoState) (req : Request)
    (credentials : String × String) (token : String) (view : SanitizedUser) (a : Account) :
    Prop where
  holds : s.Holds P a
  email : a.email = credentials.1
  password : P.compareSync credentials.2 a.passwordHash = true
  token : ∃ u : User, u.id = a.id ∧ token = signToken P cfg u req.seeds.signedAt
  view : view.id = a.id

/-- The user that a session is signed for. -/
theorem of_mem_session {user : User} {status status' iat : ℕ} {token : String}
    {view : SanitizedUser}
    (h : (⟨status, .session token view⟩ : Response) ∈
      [(⟨status', .session (signToken P cfg user iat) (sanitizeUser user)⟩ : Response)]) :
    token = signToken P cfg user iat ∧ view.id = user.id := by
  have heq := List.mem_singleton.mp h
  simp only [Response.mk.injEq, Body.session.injEq] at heq
  obtain ⟨-, rfl, rfl⟩ := heq
  exact ⟨rfl, rfl⟩

/-- The accounts that a request finds stay in the database. -/
theorem accounts_exec (P : Platform) (M : Mongoose) (cfg : Config) (req : Request)
    (s : MongoState) : s.users.map User.account <+:
      ((serveMongo P cfg req).exec (mongoStore P M) s).state.users.map User.account :=
  (Program.exec_rel MongoState.Grows.refl (fun _ _ _ h h' => h.trans h') MongoState.grows_perform
    _ _).accounts

/-- Accounts with distinct ids had distinct ids before. -/
theorem nodup_ids_of_accounts (hs : s.users.map User.account <+: s'.users.map User.account)
    (h : s'.ids.Nodup) : s.ids.Nodup := by
  rw [MongoState.ids_eq_map_account] at h ⊢
  exact (hs.map Account.id).sublist.nodup h

section Sessions

variable {status : ℕ} {token : String} {view : SanitizedUser}

/-- A registration that is answered with a session. -/
theorem sessionOf_registration (hP : PlatformLaws P)
    (hcompare : ∀ p salt, P.compareSync p (P.hashSync p salt) = true)
    {value : RegisterValue} (hv : req.registration P = some value)
    (hids : ((serveMongo P cfg req).exec (mongoStore P M) s).state.ids.Nodup)
    (hsent : ⟨status, .session token view⟩ ∈
      ((serveMongo P cfg req).exec (mongoStore P M) s).sent) :
    ∃ a, SessionOf P cfg ((serveMongo P cfg req).exec (mongoStore P M) s).state req
      (P.toLowerCase value.email, value.password) token view a := by
  rw [MongoState.exec_registration hP cfg hv] at hids hsent ⊢
  split_ifs at hids hsent ⊢ with htaken
  · simp at hsent
  · obtain ⟨htoken, hview⟩ := of_mem_session hsent
    have hemail : (MongoState.registered P req value).email = P.toLowerCase value.email :=
      hP.toLowerCase_idem value.email
    -- the email was free, so the user that was added is the first that has it
    have hfound : (s.addUser (MongoState.registered P req value)).userByEmail P value.email =
        some (MongoState.registered P req value) := by
      have hfree : (s.users.find? fun u => u.email = P.toLowerCase value.email) = none :=
        MongoState.userByEmail_eq_none.mpr htaken
      show ((s.users ++ [MongoState.registered P req value]).find?
        fun u => u.email = P.toLowerCase value.email) = _
      rw [List.find?_append, hfree, List.find?_cons_of_pos (by simpa using hemail)]
      rfl
    exact ⟨_, MongoState.holds_of_userByEmail hP.toLowerCase_idem hids hfound, hemail,
      hcompare value.password req.seeds.salt, ⟨_, rfl, htoken⟩, hview⟩

/-- A login that is answered with a session. -/
theorem sessionOf_login (hlower : ∀ e, P.toLowerCase (P.toLowerCase e) = P.toLowerCase e)
    {value : LoginValue} (hv : req.login P = some value)
    (hids : ((serveMongo P cfg req).exec (mongoStore P M) s).state.ids.Nodup)
    (hsent : ⟨status, .session token view⟩ ∈
      ((serveMongo P cfg req).exec (mongoStore P M) s).sent) :
    ∃ a, SessionOf P cfg ((serveMongo P cfg req).exec (mongoStore P M) s).state req
      (P.toLowerCase value.email, value.password) token view a := by
  have haccounts := accounts_exec P M cfg req s
  have hold := nodup_ids_of_accounts haccounts hids
  generalize ((serveMongo P cfg req).exec (mongoStore P M) s).state = s' at haccounts ⊢
  rw [serveMongo_of_login hv, MongoState.exec_findUserByEmail, Program.onAnswer_ok] at hsent
  cases hfound : s.userByEmail P value.email with
  | none => simp [hfound, loginFound, sendJson, Program.send] at hsent
  | some user =>
    rw [hfound] at hsent
    by_cases hpass : P.compareSync value.password user.passwordHash = false
    · simp [loginFound, hpass, sendJson, Program.send] at hsent
    · have hholds := MongoState.holds_of_userByEmail hlower hold hfound
      obtain ⟨u, hid, htoken, hview⟩ : ∃ u : User, u.id = user.id ∧
          token = signToken P cfg u req.seeds.signedAt ∧ view.id = u.id := by
        rw [loginFound_some hpass] at hsent
        split_ifs at hsent with hasks
        · have hlookup : s.userById user.id = some user :=
            Keyed.lookup_of_mem hold (List.mem_of_find?_eq_some hfound)
          have hperform : (mongoStore P M).perform
              (.updateUserRole user.id (requestedRole value)) s = _ :=
            perform_updateUserRole user.id (requestedRole value) s
          rw [Program.exec_call, hperform, hlookup] at hsent
          split_ifs at hsent
          · exact ⟨{ user with role := requestedRole value }, rfl, of_mem_session hsent⟩
          · cases hsent
        · exact ⟨user, rfl, of_mem_session hsent⟩
      exact ⟨user.account, hholds.mono haccounts, MongoState.email_of_userByEmail hfound,
        Bool.not_eq_false _ ▸ hpass, ⟨u, hid, htoken⟩, hview.trans hid⟩

/-- **The account of a session is in the database.** -/
theorem holds_of_session (hP : PlatformLaws P)
    (hcompare : ∀ p salt, P.compareSync p (P.hashSync p salt) = true)
    {credentials : String × String} (hc : req.credentials P = some credentials)
    (hids : ((serveMongo P cfg req).exec (mongoStore P M) s).state.ids.Nodup)
    (hsent : ⟨status, .session token view⟩ ∈
      ((serveMongo P cfg req).exec (mongoStore P M) s).sent) :
    ∃ a, SessionOf P cfg ((serveMongo P cfg req).exec (mongoStore P M) s).state req credentials
      token view a := by
  unfold Request.credentials at hc
  cases hr : req.registration P with
  | some value =>
    rw [hr] at hc
    obtain rfl := Option.some.inj hc
    exact sessionOf_registration hP hcompare hr hids hsent
  | none =>
    rw [hr] at hc
    obtain ⟨value, hl, rfl⟩ := Option.map_eq_some_iff.mp hc
    exact sessionOf_login hP.toLowerCase_idem hl hids hsent

end Sessions

/-! ## An account that is honoured -/

/-- The handlers behind the authentication middleware answer with other codes than its own, and
show no session. -/
theorem exists_learning (P : Platform) (cfg : Config) (h : req.ReachesLearning) :
    ∃ next : User → Handler, serveMongo P cfg req = authMiddleware P cfg req next ∧
      ∀ user, (next user).Within (fun _ => True) fun r => r.status ≠ 401 ∧ r.HasNoSession := by
  obtain ⟨⟨body, hp⟩, e, he, hl⟩ := h
  simp only [serveMongo, hp, routers, he]
  have hsend : ∀ {status : ℕ} {body : Body}, status ≠ 401 →
      (∀ token view, body ≠ .session token view) → (sendJson status body : Handler).Within
        (fun _ => True) fun r => r.status ≠ 401 ∧ r.HasNoSession :=
    fun hstatus hbody => Program.within_send ⟨hstatus, hbody⟩
  cases e with
  | tracks =>
    refine ⟨_, rfl, fun user => ?_⟩
    exact Program.within_await trivial fun _ => Program.within_await trivial fun _ =>
      hsend (by decide) (by simp)
  | lessons =>
    refine ⟨_, rfl, fun user => ?_⟩
    exact Program.within_await trivial fun _ => Program.within_await trivial fun _ =>
      hsend (by decide) (by simp)
  | lesson id =>
    cases id with
    | none => cases hl
    | some id =>
      refine ⟨_, rfl, fun user => Program.within_await trivial fun lesson => ?_⟩
      cases lesson with
      | none => exact hsend (by decide) (by simp)
      | some lesson => exact Program.within_await trivial fun _ => hsend (by decide) (by simp)
  | postProgress =>
    refine ⟨_, rfl, fun user => ?_⟩
    unfold postProgress
    cases progressSchema P body.orEmpty with
    | error message => exact hsend (by decide) (by simp)
    | ok value =>
      refine Program.within_await trivial fun lesson => ?_
      cases lesson with
      | none => exact hsend (by decide) (by simp)
      | some lesson =>
        exact Program.within_await trivial fun _ => Program.within_await trivial fun _ =>
          hsend (by decide) (by simp)
  | progress =>
    refine ⟨_, rfl, fun user => ?_⟩
    exact Program.within_await trivial fun _ => hsend (by decide) (by simp)
  | _ => cases hl

/-- Only registrations and logins are answered with sessions. -/
theorem within_of_credentials (hc : req.credentials P = none) :
    (serveMongo P cfg req).Within (fun _ => True) Response.HasNoSession := by
  have hsend : ∀ {status : ℕ} {body : Body}, (∀ token view, body ≠ .session token view) →
      (sendJson status body : Handler).Within (fun _ => True) Response.HasNoSession :=
    fun hbody => Program.within_send hbody
  by_cases hreach : req.ReachesLearning
  · obtain ⟨next, hserve, hnext⟩ := exists_learning P cfg hreach
    rw [hserve]
    rcases authMiddleware_cases P cfg req with ⟨-, message, hcall⟩ | ⟨id, -, hcall⟩
    · rw [hcall]
      exact hsend nofun
    · rw [hcall]
      refine ⟨trivial, fun answer => ?_⟩
      unfold authenticated
      split
      · exact (hnext _).mono (fun _ h => h) fun r h => h.2
      · exact hsend nofun
      · exact hsend nofun
  · obtain ⟨hr, hl⟩ : req.registration P = none ∧ req.login P = none := by
      unfold Request.credentials at hc
      cases hr : req.registration P with
      | some value => simp [hr] at hc
      | none => exact ⟨rfl, by simpa [hr] using hc⟩
    unfold serveMongo
    cases hp : req.payload with
    | refused status => exact hsend nofun
    | parsed body =>
      unfold routers
      have hlearning : ∀ e, req.endpoint = some e → e.isLearning ≠ true := fun e he hl =>
        hreach ⟨⟨body, hp⟩, e, he, hl⟩
      cases he : req.endpoint with
      | none => exact hsend nofun
      | some e =>
        cases e with
        | health => exact hsend nofun
        | ready =>
          refine Program.within_await trivial fun b => ?_
          cases b <;> exact hsend nofun
        | register =>
          obtain ⟨message, hrefused⟩ : ∃ message, register P cfg req body = _ :=
            register_of_refused hp he hr
          dsimp only
          rw [hrefused]
          exact hsend nofun
        | login =>
          obtain ⟨message, hrefused⟩ : ∃ message, login P cfg req body = _ :=
            login_of_refused hp he hl
          dsimp only
          rw [hrefused]
          exact hsend nofun
        | lesson id =>
          cases id with
          | none => exact hsend nofun
          | some id => exact absurd rfl (hlearning _ he)
        | _ => exact absurd rfl (hlearning _ he)

/-- A live token of an account is accepted. -/
theorem status_of_token (htoken : TokenLaws P cfg Live) (h : s.Holds P a)
    (hobject : M.isObjectId a.id = true) (hreach : req.ReachesLearning) {u : User}
    (hid : u.id = a.id) {iat : Time}
    (hheader : req.authorization = some ("Bearer " ++ signToken P cfg u iat))
    (hlive : Live iat req.seeds.verifiedAt) :
    ∀ r ∈ ((serveMongo P cfg req).exec (mongoStore P M) s).sent, r.status ≠ 401 := by
  have hv : P.jwtVerify (signToken P cfg u iat) cfg.jwtSecret req.seeds.verifiedAt =
      some ⟨u.id, u.email⟩ := htoken.verify_sign _ hlive
  have hsubject : req.subject P cfg = some a.id := by
    have hb : bearerToken (req.authorization.getD "") = some (signToken P cfg u iat) := by
      rw [hheader]
      exact bearerToken_eq_some.mpr rfl
    have hne : signToken P cfg u iat ≠ "" := htoken.sign_ne_empty _ _
    simp only [Request.subject, hb, if_neg hne, hv, Option.map_some, hid]
  obtain ⟨next, hserve, hnext⟩ := exists_learning P cfg hreach
  obtain ⟨v, hv', -⟩ := h.byId
  rcases authMiddleware_cases P cfg req with ⟨hnone, -⟩ | ⟨id, hsome, hcall⟩
  · rw [hsubject] at hnone
    cases hnone
  · obtain rfl := Option.some.inj (hsubject.symm.trans hsome)
    rw [hserve, hcall, Program.exec_call, perform_findUserById, if_pos hobject, hv']
    exact fun r hr => ((hnext v).exec_sent _ _ r hr).1

/-- The email of an account is not registered again. -/
theorem status_of_registration (hP : PlatformLaws P) (h : s.Holds P a)
    (hr : req.registers P a.email = true) :
    ∀ r ∈ ((serveMongo P cfg req).exec (mongoStore P M) s).sent, r.status = 409 := by
  obtain ⟨value, hv, hemail⟩ := registers_eq_true.mp hr
  obtain ⟨u, hu, ha⟩ := h.byEmail
  have htaken : P.toLowerCase value.email ∈ s.emails := by
    rw [hemail]
    exact List.mem_map.mpr ⟨u, List.mem_of_find?_eq_some hu, congrArg Account.email ha⟩
  rw [MongoState.exec_registration hP cfg hv, if_pos htaken]
  intro r hsent
  rw [List.mem_singleton.mp hsent]

/-- The password of an account logs in, and shows the account. -/
theorem session_of_login (h : s.Holds P a) (hobject : M.isObjectId a.id = true)
    {value : LoginValue} (hv : req.login P = some value)
    (hemail : P.toLowerCase value.email = a.email)
    (hpass : P.compareSync value.password a.passwordHash = true) :
    ∀ r ∈ ((serveMongo P cfg req).exec (mongoStore P M) s).sent,
      ∃ token view, r = ⟨200, .session token view⟩ ∧ view.id = a.id := by
  obtain ⟨⟨u, hu, rfl⟩, v, hv', ha⟩ := h
  have hlower : u.email = P.toLowerCase u.email := MongoState.email_of_userByEmail hu
  have hfound : s.userByEmail P value.email = some u := by
    show (s.users.find? fun w => w.email = P.toLowerCase value.email) = some u
    rw [hemail]
    rw [MongoState.userByEmail, show P.toLowerCase u.account.email = u.email from hlower.symm] at hu
    exact hu
  have haccepted : P.compareSync value.password u.passwordHash ≠ false := by
    rw [show P.compareSync value.password u.passwordHash = true from hpass]
    decide
  rw [serveMongo_of_login hv, MongoState.exec_findUserByEmail, Program.onAnswer_ok, hfound,
    loginFound_some haccepted]
  intro r hsent
  split_ifs at hsent
  · have hperform : (mongoStore P M).perform
        (.updateUserRole u.id (requestedRole value)) s = _ :=
      perform_updateUserRole u.id (requestedRole value) s
    have hfoundById : s.userById u.id = some v := hv'
    have hobject : M.isObjectId u.id = true := hobject
    rw [if_pos hobject, hfoundById, Option.map_some] at hperform
    rw [Program.exec_call, hperform] at hsent
    exact ⟨_, _, List.mem_singleton.mp hsent, congrArg Account.id ha⟩
  · exact ⟨_, _, List.mem_singleton.mp hsent, rfl⟩

/-- What a client that was answered with the session relies on when a later request of its is
answered: the token is accepted, the email is not registered again, and the password logs in and
shows the same user. -/
structure Honours (P : Platform) (Live : Time → Time → Prop) (req : Request) (token : String)
    (view : SanitizedUser) (req' : Request) (responses : List Response) : Prop where
  token : req'.ReachesLearning → req'.authorization = some ("Bearer " ++ token) →
    Live req.seeds.signedAt req'.seeds.verifiedAt → ∀ r ∈ responses, r.status ≠ 401
  email : ∀ credentials ∈ req.credentials P, req'.registers P credentials.1 = true →
    ∀ r ∈ responses, r.status = 409
  password : ∀ value ∈ req'.login P,
    req.credentials P = some (P.toLowerCase value.email, value.password) →
    ∀ r ∈ responses, ∃ token' view', r = ⟨200, .session token' view'⟩ ∧ view'.id = view.id

/-- **An account in the database is honoured.** -/
theorem honours_of_holds (hP : PlatformLaws P) (htoken : TokenLaws P cfg Live)
    {credentials : String × String} (hc : req.credentials P = some credentials) {token : String}
    {view : SanitizedUser} (hsession : SessionOf P cfg s req credentials token view a)
    (hs : s.users.map User.account <+: s'.users.map User.account)
    (hobject : M.isObjectId a.id = true) (req' : Request) :
    Honours P Live req token view req'
      ((serveMongo P cfg req').exec (mongoStore P M) s').sent := by
  have hholds := hsession.holds.mono hs
  refine ⟨fun hreach hheader hlive => ?_, fun c hc' hr => ?_, fun value hv hc' => ?_⟩
  · obtain ⟨u, hid, rfl⟩ := hsession.token
    exact status_of_token htoken hholds hobject hreach hid hheader hlive
  · obtain rfl := Option.some.inj (hc.symm.trans hc')
    exact status_of_registration hP hholds (hsession.email ▸ hr)
  · obtain rfl := Option.some.inj (hc.symm.trans hc')
    rw [hsession.view]
    exact session_of_login hholds hobject hv hsession.email.symm hsession.password

/-- A response that agrees with one that honours a session honours it. -/
theorem Honours.of_agrees {token : String} {view : SanitizedUser} {req' : Request}
    {r r' : Response} (h : Honours P Live req token view req' [r']) (hr : r.Agrees r') :
    Honours P Live req token view req' [r] := by
  rcases hr with rfl | ⟨hstatus, hstatus', -, -⟩
  · exact h
  · have h' : ∀ {Q : ℕ → Prop}, (∀ o ∈ [r'], Q o.status) → ∀ o ∈ [r], Q o.status := by
      intro Q hQ o ho
      rw [List.mem_singleton.mp ho, hstatus, ← hstatus']
      exact hQ r' (List.mem_singleton.mpr rfl)
    refine ⟨fun hreach hheader hlive => h' (Q := (· ≠ 401)) (h.token hreach hheader hlive),
      fun c hc he => h' (Q := (· = 409)) (h.email c hc he), fun value hv hc => ?_⟩
    -- a login is not answered 201
    obtain ⟨token', view', rfl, -⟩ := h.password value hv hc r' (List.mem_singleton.mpr rfl)
    cases hstatus'

/-! ## Lives -/

/-- A life of the server: it is killed after some writes of its seeding, or it serves requests until
it is killed. -/
inductive Life where
  | failed (seeds : StartSeeds) (writes : ℕ)
  | served (seeds : StartSeeds) (as : List (Action Request))

/-- The ids that a life draws: that of the demo account, and those of its requests. -/
def Life.drawn : Life → List String
  | .failed seeds _ => [seeds.demoId]
  | .served seeds as => seeds.demoId :: (as.filterMap Pool.arrival).map fun r => r.seeds.newId

section Lives

variable (P M cfg) (catalogue : List CoreLesson)

/-- The database `db` after a start. -/
abbrev started (seeds : StartSeeds) (db : MongoState) : MongoState :=
  createMongoStore P catalogue seeds.demoId seeds.salt seeds.now db

/-- The pool of a life that has started on the database `db`, after the actions `as`. -/
abbrev servedPool (db : MongoState) (seeds : StartSeeds) (as : List (Action Request)) :
    MongoPool P M :=
  runMongo P M cfg (started P catalogue seeds db) as

/-- What a life leaves of the database. -/
def lifeStep (db : MongoState) : Life → MongoState
  | .failed seeds writes => killedStart P catalogue seeds db writes
  | .served seeds as => (servedPool P M cfg catalogue db seeds as).state

/-- The database after some lives, the first of which found it empty. -/
abbrev databaseAfterLives (lives : List Life) : MongoState :=
  run (lifeStep P M cfg catalogue) emptyDatabase lives

variable {P M cfg catalogue} {db : MongoState} {seeds : StartSeeds} {as bs : List (Action Request)}

/-- A start adds the demo account to the accounts, or nothing. -/
theorem users_start (P : Platform) (catalogue : List CoreLesson) (seeds : StartSeeds)
    (db : MongoState) (writes : ℕ) :
    ∃ new : List User, (new.map User.id).Sublist [seeds.demoId] ∧
      (killedStart P catalogue seeds db writes).users = db.users ++ new := by
  refine ⟨_, ?_, congrArg MongoState.users (killedStart_eq P catalogue seeds db writes)⟩
  refine List.Sublist.trans ((List.take_sublist _ _).map _) ?_
  unfold missingUsers
  cases db.users.find? fun u => u.email = demoEmail with
  | some u => exact List.nil_sublist _
  | none => exact List.Sublist.refl _

/-- The accounts keep their positions over a start. -/
theorem accounts_killedStart (P : Platform) (catalogue : List CoreLesson) (seeds : StartSeeds)
    (db : MongoState) (writes : ℕ) : db.users.map User.account <+:
      (killedStart P catalogue seeds db writes).users.map User.account := by
  obtain ⟨new, -, hnew⟩ := users_start P catalogue seeds db writes
  rw [hnew, List.map_append]
  exact List.prefix_append _ _

theorem accounts_started (P : Platform) (catalogue : List CoreLesson) (seeds : StartSeeds)
    (db : MongoState) : db.users.map User.account <+:
      (started P catalogue seeds db).users.map User.account := by
  rw [started, createMongoStore_eq]
  exact accounts_killedStart P catalogue seeds db _

/-- A life keeps the accounts. -/
theorem accounts_lifeStep (db : MongoState) (life : Life) : db.users.map User.account <+:
    (lifeStep P M cfg catalogue db life).users.map User.account := by
  cases life with
  | failed seeds writes => exact accounts_killedStart P catalogue seeds db writes
  | served seeds as =>
    exact (accounts_started P catalogue seeds db).trans (Pool.rely_history (K := mongoEnvironment)
      (fun c s => MongoState.grows_perform c s) as).accounts

theorem accounts_lives (P : Platform) (M : Mongoose) (cfg : Config) (catalogue : List CoreLesson)
    (past later : List Life) :
    (databaseAfterLives P M cfg catalogue past).users.map User.account <+:
      (databaseAfterLives P M cfg catalogue (past ++ later)).users.map User.account := by
  rw [databaseAfterLives, databaseAfterLives, run_append]
  exact run_rel (R := fun s s' : MongoState => s.users.map User.account <+:
    s'.users.map User.account) (fun _ => List.prefix_rfl) List.IsPrefix.trans accounts_lifeStep _ _

/-- The ids of the accounts are distinct, and were drawn. -/
structure Drawn (ids : List String) (db : MongoState) : Prop where
  nodup : db.ids.Nodup
  subset : db.ids ⊆ ids

/-- A start draws the id of the demo account. -/
theorem Drawn.killedStart {ids : List String} (h : Drawn ids db) (seeds : StartSeeds)
    (hnew : seeds.demoId ∉ ids) (writes : ℕ) :
    Drawn (ids ++ [seeds.demoId]) (killedStart P catalogue seeds db writes) := by
  obtain ⟨new, hids, hnew'⟩ := users_start P catalogue seeds db writes
  have heq : (LanguageGuru.killedStart P catalogue seeds db writes).ids =
      db.ids ++ new.map User.id := by
    rw [MongoState.ids, hnew', List.map_append]
    rfl
  have hfresh : (db.ids ++ [seeds.demoId]).Nodup := by
    refine List.nodup_append.mpr ⟨h.nodup, List.nodup_singleton _, fun id hid id' hid' heq => ?_⟩
    obtain rfl := List.mem_singleton.mp hid'
    exact hnew (heq ▸ h.subset hid)
  constructor
  · rw [heq]
    exact ((List.Sublist.refl _).append hids).nodup hfresh
  · rw [heq]
    intro id hid
    rcases List.mem_append.mp hid with hold | hnew
    · exact List.mem_append_left _ (h.subset hold)
    · exact List.mem_append_right _ (hids.subset hnew)

/-- Ids that were not drawn before are new in the database. -/
theorem Drawn.fresh {ids new : List String} (h : Drawn ids db) (hfresh : (ids ++ new).Nodup) :
    (db.ids ++ new).Nodup := by
  obtain ⟨-, hnew, hdisjoint⟩ := List.nodup_append.mp hfresh
  exact List.nodup_append.mpr
    ⟨h.nodup, hnew, fun id hid id' hid' => hdisjoint id (h.subset hid) id' hid'⟩

/-- Requests draw their ids. -/
theorem Drawn.sequential (hP : PlatformLaws P) {ids : List String} (h : Drawn ids db)
    (hfresh : (ids ++ (as.filterMap Pool.arrival).map fun r => r.seeds.newId).Nodup)
    {order : List (ℕ × Request)}
    (hlinear : Pool.Linearization (mongoMeaning P M cfg) db order (runMongo P M cfg db as)) :
    Drawn (ids ++ (as.filterMap Pool.arrival).map fun r => r.seeds.newId)
      (Pool.sequential (mongoMeaning P M cfg) db order) := by
  have hrequests : (runMongo P M cfg db as).tasks.map Task.request = as.filterMap Pool.arrival :=
    Pool.map_request_history as
  constructor
  · rw [← hlinear.state]
    refine ids_nodup_of_linearization hP hlinear ?_
    rw [hrequests]
    exact h.fresh hfresh
  · intro id hid
    have hsub := MongoState.ids_run (M := M) hP cfg db (order.map Prod.snd)
    rcases List.mem_append.mp (hsub.subset hid) with hold | hnew
    · exact List.mem_append_left _ (h.subset hold)
    · obtain ⟨r, hr, rfl⟩ := List.mem_map.mp hnew
      refine List.mem_append_right _ (List.mem_map_of_mem ?_)
      rw [← hrequests]
      exact hlinear.mem_requests hr

/-- The linearization of a life, whose accounts have ids that were drawn. -/
theorem Drawn.served (hP : PlatformLaws P) (M : Mongoose) (cfg : Config)
    (catalogue : List CoreLesson) {ids : List String} (h : Drawn ids db)
    (hfresh : (ids ++ (Life.served seeds as).drawn).Nodup) :
    let s₀ := started P catalogue seeds db
    ∃ order, Pool.Linearization (mongoMeaning P M cfg) s₀ order (runMongo P M cfg s₀ as) ∧
      (∀ bs, bs <+: as → ∃ order', order' <+: order ∧
        Pool.Linearization (mongoMeaning P M cfg) s₀ order' (runMongo P M cfg s₀ bs)) ∧
      Drawn (ids ++ (Life.served seeds as).drawn)
        (Pool.sequential (mongoMeaning P M cfg) s₀ order) := by
  intro s₀
  have hstart : Drawn (ids ++ [seeds.demoId]) s₀ := by
    have hnew : seeds.demoId ∉ ids := fun hmem =>
      (List.nodup_append.mp hfresh).2.2 _ hmem _ List.mem_cons_self rfl
    show Drawn _ (started P catalogue seeds db)
    rw [started, createMongoStore_eq]
    exact h.killedStart seeds hnew _
  have hsplit : ids ++ (Life.served seeds as).drawn =
      (ids ++ [seeds.demoId]) ++ (as.filterMap Pool.arrival).map fun r => r.seeds.newId := by
    rw [List.append_assoc]
    rfl
  rw [hsplit] at hfresh ⊢
  obtain ⟨order, hlinear, hprefixes⟩ :=
    linearization_runMongo hP M cfg s₀ as (hstart.fresh hfresh)
  exact ⟨order, hlinear, hprefixes, hstart.sequential hP hfresh hlinear⟩

/-- The ids of the accounts were drawn by the lives. -/
theorem drawn_lives (hP : PlatformLaws P) {lives : List Life}
    (hfresh : (lives.flatMap Life.drawn).Nodup) :
    Drawn (lives.flatMap Life.drawn) (databaseAfterLives P M cfg catalogue lives) := by
  induction lives using List.reverseRecOn with
  | nil => exact ⟨List.nodup_nil, List.Subset.refl _⟩
  | append_singleton past life ih =>
    rw [List.flatMap_append, List.flatMap_singleton] at hfresh ⊢
    have hpast := ih (List.nodup_append.mp hfresh).1
    rw [databaseAfterLives, run_snoc]
    cases life with
    | failed seeds writes =>
      refine hpast.killedStart seeds (fun hmem => ?_) writes
      exact (List.nodup_append.mp hfresh).2.2 _ hmem _ List.mem_cons_self rfl
    | served seeds as =>
      obtain ⟨order, hlinear, -, hdrawn⟩ := hpast.served hP M cfg catalogue hfresh
      rw [← hlinear.state] at hdrawn
      exact hdrawn

theorem nodup_drawn_of_prefix {past lives : List Life} (h : past <+: lives)
    (hfresh : (lives.flatMap Life.drawn).Nodup) : (past.flatMap Life.drawn).Nodup := by
  obtain ⟨rest, rfl⟩ := h
  rw [List.flatMap_append] at hfresh
  exact (List.nodup_append.mp hfresh).1

/-- **A life among others linearizes**, every earlier moment of it to an earlier part of the order,
and the order leads to the database that the life leaves. -/
theorem linearization_of_lives (hP : PlatformLaws P) (M : Mongoose) (cfg : Config)
    (catalogue : List CoreLesson) {lives past : List Life}
    (hfresh : (lives.flatMap Life.drawn).Nodup) (hlife : past ++ [.served seeds as] <+: lives) :
    let s₀ := started P catalogue seeds (databaseAfterLives P M cfg catalogue past)
    ∃ order, Pool.Linearization (mongoMeaning P M cfg) s₀ order (runMongo P M cfg s₀ as) ∧
      (∀ bs, bs <+: as → ∃ order', order' <+: order ∧
        Pool.Linearization (mongoMeaning P M cfg) s₀ order' (runMongo P M cfg s₀ bs)) ∧
      Drawn (lives.flatMap Life.drawn) (Pool.sequential (mongoMeaning P M cfg) s₀ order) ∧
      Pool.sequential (mongoMeaning P M cfg) s₀ order =
        databaseAfterLives P M cfg catalogue (past ++ [.served seeds as]) := by
  intro s₀
  have hnodup := nodup_drawn_of_prefix hlife hfresh
  rw [List.flatMap_append, List.flatMap_singleton] at hnodup
  obtain ⟨order, hlinear, hprefixes, hdrawn⟩ :=
    (drawn_lives hP (List.nodup_append.mp hnodup).1).served hP M cfg catalogue hnodup
  refine ⟨order, hlinear, hprefixes, ⟨hdrawn.nodup, fun id hid => ?_⟩, ?_⟩
  · obtain ⟨rest, rfl⟩ := hlife
    rw [List.flatMap_append, List.flatMap_append, List.flatMap_singleton]
    exact List.mem_append_left _ (hdrawn.subset hid)
  · rw [databaseAfterLives, run_snoc]
    exact hlinear.state.symm

end Lives

/-! ## Sessions over lives -/

section Linearized

variable {s₀ : MongoState} {order : List (ℕ × Request)} {pool : MongoPool P M}
  (h : Pool.Linearization (mongoMeaning P M cfg) s₀ order pool)
include h

/-- A task that is answered with a session has taken effect, and its account is in the database. -/
theorem sessionOf_answered (hP : PlatformLaws P)
    (hcompare : ∀ p salt, P.compareSync p (P.hashSync p salt) = true)
    (hids : (Pool.sequential (mongoMeaning P M cfg) s₀ order).ids.Nodup) {i : ℕ}
    {t : Task Request (mongoStore P M) Response Unit} (ht : pool.tasks[i]? = some t) {status : ℕ}
    {token : String} {view : SanitizedUser} (hsent : ⟨status, .session token view⟩ ∈ t.outputs) :
    ∃ past credentials a, past ++ [(i, t.request)] <+: order ∧
      t.request.credentials P = some credentials ∧
      SessionOf P cfg (Pool.sequential (mongoMeaning P M cfg) s₀ (past ++ [(i, t.request)]))
        t.request credentials token view a := by
  rcases h.answered i t ht with hnone | ⟨o, past, hsome, hpast, o', hexec, hagrees⟩
  · rw [hnone] at hsent
    cases hsent
  · rw [hsome] at hsent
    obtain rfl := List.mem_singleton.mp hsent
    obtain rfl : (⟨status, .session token view⟩ : Response) = o' := by
      rcases hagrees with heq | ⟨-, -, ⟨ps, hbody⟩, -⟩
      · exact heq
      · cases hbody
    have hmem : (⟨status, .session token view⟩ : Response) ∈ ((serveMongo P cfg t.request).exec
        (mongoStore P M) (Pool.sequential (mongoMeaning P M cfg) s₀ past)).sent := by
      rw [hexec]
      exact List.mem_singleton.mpr rfl
    have hafter : (Pool.sequential (mongoMeaning P M cfg) s₀ (past ++ [(i, t.request)])) =
        ((serveMongo P cfg t.request).exec (mongoStore P M)
          (Pool.sequential (mongoMeaning P M cfg) s₀ past)).state :=
      Pool.sequential_snoc i t.request
    have hnodup := nodup_ids_of_accounts (grows_sequential hpast).accounts hids
    rw [hafter] at hnodup
    cases hc : t.request.credentials P with
    | none => exact absurd rfl ((within_of_credentials hc).exec_sent _ _ _ hmem token view)
    | some credentials =>
      obtain ⟨a, hsession⟩ := holds_of_session hP hcompare hc hnodup hmem
      rw [← hafter] at hsession
      exact ⟨past, credentials, a, hpast, rfl, hsession⟩

/-- A task honours a session if its request does when it runs alone. -/
theorem honours_of_linearization {req : Request} {token : String} {view : SanitizedUser} {j : ℕ}
    {t : Task Request (mongoStore P M) Response Unit} (ht : pool.tasks[j]? = some t)
    (hhonours : ∀ past, past ++ [(j, t.request)] <+: order →
      Honours P Live req token view t.request ((serveMongo P cfg t.request).exec (mongoStore P M)
        (Pool.sequential (mongoMeaning P M cfg) s₀ past)).sent) :
    Honours P Live req token view t.request t.outputs := by
  rcases h.answered j t ht with hnone | ⟨o, past, hsome, hpast, o', hexec, hagrees⟩
  · rw [hnone]
    exact ⟨nofun, nofun, nofun⟩
  · have hself := hhonours past hpast
    rw [hexec] at hself
    rw [hsome]
    exact hself.of_agrees hagrees

end Linearized

/-- **Sessions survive.** A server on the MongoDB store is started and killed any number of times,
and serves requests whose handlers are interleaved. When a request was answered with a session, its
token, its email and its password are honoured by every request that arrives later in the same life,
and by every request of a later life. The ids that the lives draw are distinct `ObjectId`s. -/
theorem sessions_survive (hP : PlatformLaws P)
    (hcompare : ∀ p salt, P.compareSync p (P.hashSync p salt) = true)
    (htoken : TokenLaws P cfg Live) (M : Mongoose) (catalogue : List CoreLesson)
    (lives : List Life) (hfresh : (lives.flatMap Life.drawn).Nodup)
    (hobjects : ∀ id ∈ lives.flatMap Life.drawn, M.isObjectId id = true) (past : List Life)
    {seeds : StartSeeds} {as bs : List (Action Request)}
    (hlife : past ++ [.served seeds as] <+: lives) (hbs : bs <+: as) :
    let database := databaseAfterLives P M cfg catalogue
    let pool := servedPool P M cfg catalogue (database past) seeds
    ∀ t ∈ (pool bs).tasks, ∀ status token view, ⟨status, .session token view⟩ ∈ t.outputs →
      (∀ j t', (pool as).tasks[j]? = some t' → (pool bs).tasks.length ≤ j →
        Honours P Live t.request token view t'.request t'.outputs) ∧
      ∀ later seeds' as', past ++ [.served seeds as] ++ later ++ [.served seeds' as'] <+: lives →
        ∀ t' ∈ (servedPool P M cfg catalogue (database (past ++ [.served seeds as] ++ later)) seeds'
            as').tasks,
          Honours P Live t.request token view t'.request t'.outputs := by
  intro database pool t ht status token view hsent
  obtain ⟨i, hi⟩ := List.mem_iff_getElem?.mp ht
  obtain ⟨order, hlinear, hprefixes, hids, hleaves⟩ :=
    linearization_of_lives hP M cfg catalogue hfresh hlife
  obtain ⟨order', hle, hlinear'⟩ := hprefixes bs hbs
  have hids' := nodup_ids_of_accounts (grows_sequential hle).accounts hids.nodup
  obtain ⟨before, credentials, a, hbefore, hc, hsession⟩ :=
    sessionOf_answered hlinear' hP hcompare hids' hi hsent
  have hgrows : ∀ (s₀ : MongoState) {p q : List (ℕ × Request)}, p <+: q →
      (Pool.sequential (mongoMeaning P M cfg) s₀ p).users.map User.account <+:
        (Pool.sequential (mongoMeaning P M cfg) s₀ q).users.map User.account :=
    fun _ _ _ h => (grows_sequential h).accounts
  have haccounts := hgrows (started P catalogue seeds (database past)) (hbefore.trans hle)
  have hobject : M.isObjectId a.id = true := by
    obtain ⟨u, hu, ha⟩ := (hsession.holds.mono haccounts).byId
    rw [← ha]
    exact hobjects u.id (hids.subset (List.mem_map.mpr ⟨u, List.mem_of_find?_eq_some hu, rfl⟩))
  constructor
  · -- what took effect by the earlier moment comes before the request
    intro j t' ht' hj
    refine honours_of_linearization hlinear ht' fun past' hpast' => ?_
    have hearlier := hgrows (started P catalogue seeds (database past))
      (hbefore.trans (hlinear'.prefix_past hle hj hpast'))
    exact honours_of_holds hP htoken hc hsession hearlier hobject _
  · -- the accounts keep their positions from life to life
    intro later seeds' as' hlater t' ht'
    obtain ⟨order₂, hlinear₂, -⟩ := linearization_of_lives hP M cfg catalogue hfresh hlater
    obtain ⟨j, hj⟩ := List.mem_iff_getElem?.mp ht'
    refine honours_of_linearization hlinear₂ hj fun past' hpast' => ?_
    rw [hleaves] at haccounts
    have hlives := accounts_lives P M cfg catalogue (past ++ [.served seeds as]) later
    have hstart := accounts_started P catalogue seeds'
      (database (past ++ [.served seeds as] ++ later))
    have hserved := hgrows (started P catalogue seeds'
      (database (past ++ [.served seeds as] ++ later))) (List.nil_prefix (l := past'))
    have hkept := ((haccounts.trans hlives).trans hstart).trans hserved
    exact honours_of_holds hP htoken hc hsession hkept hobject _

/-- A user who registers, and logs in after the server was killed and started again. -/
theorem ada_logs_in_after_restart :
    let registers := plainRegistration "ada" "ada@example.com" "secret1" "64b000000000000000000002"
    let logsIn := plainRequest .post ["api", "auth", "login"] none
      (.obj [("email", .str "ada@example.com"), ("password", .str "secret1")])
      "64b000000000000000000003"
    let serves (req : Request) : List (Action Request) :=
      .arrive req :: List.replicate 3 (.resume 0)
    let first : Life := .served firstStart (serves registers)
    let database := databaseAfterLives plainPlatform plainMongoose plainConfig []
    let pool := servedPool plainPlatform plainMongoose plainConfig [] (database []) firstStart
      (serves registers)
    let pool' := servedPool plainPlatform plainMongoose plainConfig [] (database [first]) laterStart
      (serves logsIn)
    ∃ t ∈ pool.tasks, ∃ token view, ⟨201, .session token view⟩ ∈ t.outputs ∧
      ∃ t' ∈ pool'.tasks, t'.outputs.map Response.status = [200] ∧
        Honours plainPlatform (fun iat now => now < iat + plainLifetime) t.request token view
          t'.request t'.outputs := by
  intro registers logsIn serves first database pool pool'
  let value : RegisterValue := ⟨some "ada", none, "ada@example.com", "secret1", none, none⟩
  let user := MongoState.registered plainPlatform registers value
  have hregistered : pool.tasks[0]?.map Task.outputs =
      some [⟨201, .session (signToken plainPlatform plainConfig user 0) (sanitizeUser user)⟩] := by
    decide +kernel
  have hlogged : pool'.tasks[0]?.map (fun t => t.outputs.map Response.status) = some [200] := by
    decide +kernel
  obtain ⟨t, ht, hsent⟩ := Option.map_eq_some_iff.mp hregistered
  obtain ⟨t', ht', hstatus⟩ := Option.map_eq_some_iff.mp hlogged
  have hmem : ⟨201, .session (signToken plainPlatform plainConfig user 0) (sanitizeUser user)⟩ ∈
      t.outputs := by
    rw [hsent]
    exact List.mem_singleton.mpr rfl
  have hsurvives := sessions_survive plain_platformLaws
    (fun p salt => (plain_compareSync_hashSync p p salt).mpr rfl) plain_tokenLaws plainMongoose []
    [first, .served laterStart (serves logsIn)] (by decide) (by decide +kernel) []
    (List.prefix_append _ _) List.prefix_rfl t (List.mem_of_getElem? ht) _ _ _ hmem
  exact ⟨t, List.mem_of_getElem? ht, _, _, hmem, t', List.mem_of_getElem? ht', hstatus,
    hsurvives.2 [] laterStart (serves logsIn) List.prefix_rfl t' (List.mem_of_getElem? ht')⟩

end LanguageGuru
