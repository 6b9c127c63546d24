import LanguageGuru.Backend.Logins
import LanguageGuru.Backend.MongoRuns
import LanguageGuru.Process.Linear

/-!
# Requests on the MongoDB store in any interleaving

The handlers of requests on the MongoDB store, interleaved at their await points. Every call of the
store is one atomic operation of the database, and answers with copies. A handler therefore takes
effect at one of its calls: it answers, and changes the database, as if it had run alone at that
moment. Two things are left: a registration that found its email free and lost it to another one is
rejected by the unique index, and is not answered; and the list that a progress write answers with
is read after the write, so that it may show later writes as well.

## Main definitions

* `Response.Agrees`: responses that are equal up to the list that a progress write returns
* `mongoMeaning P M cfg req`: what a request does when it runs alone
* `runMongo P M cfg s as`: the pool of handlers after the actions `as`

## Main results

* `atomic_serveMongo`: every handler takes effect at one of its calls
* `linearization_runMongo`: every interleaving has a linearization
* `mongo_linearizable`: and it respects real time
-/

namespace LanguageGuru

open Process

/-- Responses that are equal, or the answers to a progress write, which list the progress of the
user at some later moment. -/
def Response.Agrees (r r' : Response) : Prop :=
  r = r' ∨ r.status = 201 ∧ r'.status = 201 ∧
    (∃ ps, r.body = .progress ps) ∧ ∃ ps, r'.body = .progress ps

theorem Response.Agrees.refl (r : Response) : r.Agrees r := .inl rfl

/-- What a request on the MongoDB store does when it runs alone: it changes the database, and it is
answered. A registration of an email that is taken may also end without an answer. -/
def mongoMeaning (P : Platform) (M : Mongoose) (cfg : Config) (req : Request) :
    Meaning MongoState Response where
  next s := ((serveMongo P cfg req).exec (mongoStore P M) s).state
  answers s r := ∃ r', ((serveMongo P cfg req).exec (mongoStore P M) s).sent = [r'] ∧ r.Agrees r'
  silent s := ∀ e, req.registers P e = true → e ∈ s.emails

/-- What handlers rely on: the ids of the accounts are distinct, and the database only grows. -/
def mongoEnvironment : Environment MongoState where
  Inv s := s.ids.Nodup
  Rely := MongoState.Grows
  refl := MongoState.Grows.refl
  trans := MongoState.Grows.trans

/-- The pool of handlers over the MongoDB store. -/
abbrev MongoPool (P : Platform) (M : Mongoose) := Pool Request (mongoStore P M) Response Unit

/-- The pool after the actions `as`, started without requests on the database `s`. -/
abbrev runMongo (P : Platform) (M : Mongoose) (cfg : Config) (s : MongoState)
    (as : List (Action Request)) : MongoPool P M :=
  Pool.history (serveMongo P cfg) s as

variable {P : Platform} {M : Mongoose} {cfg : Config} {req : Request}

/-- From the state `s` on, the handler of the request does what is left of it, `p`. -/
def ComesTo (P : Platform) (M : Mongoose) (cfg : Config) (req : Request) (p : Handler)
    (s : MongoState) : Prop :=
  ∀ s', s.Grows s' →
    (serveMongo P cfg req).exec (mongoStore P M) s' = p.exec (mongoStore P M) s'

/-- The rest `p` of the handler of the request is atomic from the state `s` on. -/
abbrev TakesEffect (P : Platform) (M : Mongoose) (cfg : Config) (req : Request) (p : Handler)
    (s : MongoState) : Prop :=
  p.Atomic (mongoStore P M) mongoEnvironment (mongoMeaning P M cfg req) s

theorem ComesTo.mono {p : Handler} {s s' : MongoState} (h : ComesTo P M cfg req p s)
    (hs : s.Grows s') : ComesTo P M cfg req p s' := fun s'' hs' => h s'' (hs.trans hs')

/-! ## The ways to take effect -/

section Ways

variable {s : MongoState} {c : StoreCall} {k : Except Failure (Answer c) → Handler}

/-- A handler that answers without a call. -/
theorem takesEffect_send {r : Response} (h : ComesTo P M cfg req (Program.send r) s) :
    TakesEffect P M cfg req (Program.send r) s := by
  have hs := h s (.refl s)
  refine Program.atomic_send ?_ ⟨r, ?_, .refl r⟩
  · exact congrArg Program.Outcome.state hs
  · exact congrArg Program.Outcome.sent hs

/-- A call that reads, and decides the answer. -/
theorem takesEffect_decide {r : Response} (h : ComesTo P M cfg req (Program.call c k) s)
    (hread : ((mongoStore P M).perform c s).2 = s)
    (hk : k ((mongoStore P M).perform c s).1 = Program.send r) :
    TakesEffect P M cfg req (Program.call c k) s := by
  have hs : (serveMongo P cfg req).exec (mongoStore P M) s = ⟨.ok (), [r], s⟩ := by
    have hview : (mongoStore P M).view c ((mongoStore P M).perform c s).1 s =
      ((mongoStore P M).perform c s).1 := rfl
    rw [h s (.refl s), Program.exec_call, hread, hview, hk]
    rfl
  have hnext : (mongoMeaning P M cfg req).next s = s := congrArg Program.Outcome.state hs
  refine Program.atomic_effect (hread.trans hnext.symm) fun s' _ _ => ?_
  show (k ((mongoStore P M).perform c s).1).Reports _ _ _ _
  rw [hk]
  exact Program.reports_send ⟨r, congrArg Program.Outcome.sent hs, .refl r⟩ s'

/-- A call that reads what stays as it is. -/
theorem takesEffect_read (h : ComesTo P M cfg req (Program.call c k) s)
    (hread : ∀ s', ((mongoStore P M).perform c s').2 = s')
    (hstable : ∀ s', s.Grows s' →
      ((mongoStore P M).perform c s').1 = ((mongoStore P M).perform c s).1)
    (hk : ∀ s', s.Grows s' → ComesTo P M cfg req (k ((mongoStore P M).perform c s).1) s' →
      TakesEffect P M cfg req (k ((mongoStore P M).perform c s).1) s') :
    TakesEffect P M cfg req (Program.call c k) s := by
  refine Program.atomic_read (hread s) fun s' _ hs => hk s' hs fun s'' hs' => ?_
  have hgrows : s.Grows s'' := hs.trans hs'
  have hview : (mongoStore P M).view c ((mongoStore P M).perform c s'').1 s'' =
      ((mongoStore P M).perform c s'').1 := rfl
  rw [h s'' hgrows, Program.exec_call, hread s'', hview, hstable s'' hgrows]

end Ways

/-! ## Authentication -/

/-- The answer to a lookup by id. -/
theorem perform_findUserById (id : String) (s : MongoState) :
    (mongoStore P M).perform (.findUserById id) s =
      if M.isObjectId id then (.ok (s.userById id), s)
      else (.error (.rejected "Cast to ObjectId failed"), s) := rfl

/-- A handler that reads its user by the id alone, behind the middleware. -/
theorem takesEffect_authMiddleware {next : User → Handler} {s : MongoState}
    (hnext : ∀ u u' : User, u'.id = u.id → next u' = next u)
    (h : ComesTo P M cfg req (authMiddleware P cfg req next) s)
    (huser : ∀ user s', ComesTo P M cfg req (next user) s' →
      TakesEffect P M cfg req (next user) s') :
    TakesEffect P M cfg req (authMiddleware P cfg req next) s := by
  rcases authMiddleware_cases P cfg req with ⟨-, message, heq⟩ | ⟨id, -, heq⟩
  · rw [heq] at h ⊢
    exact takesEffect_send h
  · rw [heq] at h ⊢
    by_cases hid : M.isObjectId id
    · have hperform : ∀ s', (mongoStore P M).perform (.findUserById id) s' =
          (.ok (s'.userById id), s') := fun s' => by rw [perform_findUserById, if_pos hid]
      cases hu : s.userById id with
      | none =>
        -- nobody has the id now, whoever has it later
        refine takesEffect_decide (r := ⟨401, .error "Unauthorized"⟩) h ?_ ?_
        · rw [hperform]
        · rw [hperform, hu]
          rfl
      | some user =>
        refine Program.atomic_read (by rw [hperform]) fun s' _ hs => ?_
        rw [hperform, hu]
        refine huser user s' fun s'' hs' => ?_
        -- the account is still there, and the handler reads its id only
        obtain ⟨user', hu', haccount⟩ := MongoState.Grows.userById (hs.trans hs') hu
        have hview : (mongoStore P M).view (.findUserById id) (.ok (some user')) s'' =
            .ok (some user') := rfl
        have hsame : next user' = next user := hnext user user' (congrArg Account.id haccount)
        rw [h s'' (hs.trans hs'), Program.exec_call, hperform, hu', hview, authenticated, hsame]
    · have hperform : ∀ s', (mongoStore P M).perform (.findUserById id) s' =
          (.error (.rejected "Cast to ObjectId failed"), s') :=
        fun s' => by rw [perform_findUserById, if_neg hid]
      refine takesEffect_decide (r := ⟨401, .error "Invalid token"⟩) h ?_ ?_
      · rw [hperform]
      · rw [hperform]
        rfl

/-! ## Learning -/

section Learning

variable {s : MongoState} {user : User}

/-- Requests that are no registrations may end without an answer. -/
abbrev MaySilence (P : Platform) (M : Mongoose) (cfg : Config) (req : Request) : Prop :=
  ∀ s, (mongoMeaning P M cfg req).silent s

/-- The lessons that are read stay as they are. -/
theorem getLessons_stable (filters : Filters) {s s' : MongoState} (hs : s.Grows s') :
    ((mongoStore P M).perform (.getLessons filters) s').1 =
      ((mongoStore P M).perform (.getLessons filters) s).1 := by
  simp only [mongoStore, MongoState.perform, hs.lessons]
  split <;> rfl

theorem getLessons_reads (filters : Filters) (s : MongoState) :
    ((mongoStore P M).perform (.getLessons filters) s).2 = s := by
  simp only [mongoStore, MongoState.perform]
  split <;> rfl

/-- A handler that reads lessons, then progress, and answers. -/
theorem takesEffect_lessons (hsilent : MaySilence P M cfg req) (filters : Filters)
    {body : List Lesson → List ProgressRecord → Body}
    (h : ComesTo P M cfg req (do
      let lessons : List Lesson ← awaitStore (.getLessons filters)
      let progress : List ProgressRecord ← awaitStore (.getProgressForUser user.id)
      sendJson 200 (body lessons progress)) s) :
    TakesEffect P M cfg req (do
      let lessons : List Lesson ← awaitStore (.getLessons filters)
      let progress : List ProgressRecord ← awaitStore (.getProgressForUser user.id)
      sendJson 200 (body lessons progress)) s := by
  simp only [Program.await_bind] at h ⊢
  refine takesEffect_read h (getLessons_reads filters) (fun s' => getLessons_stable filters) ?_
  intro s' _ h'
  generalize ((mongoStore P M).perform (.getLessons filters) s).1 = answer at h' ⊢
  -- the handler fails when the query cannot be cast
  cases answer with
  | error failure => exact hsilent s'
  | ok lessons => exact takesEffect_decide h' rfl rfl

theorem takesEffect_tracks (hsilent : MaySilence P M cfg req)
    (h : ComesTo P M cfg req (tracks user) s) : TakesEffect P M cfg req (tracks user) s :=
  takesEffect_lessons hsilent {} h

theorem takesEffect_lessonById {id : String} (h : ComesTo P M cfg req (lessonById id user) s) :
    TakesEffect P M cfg req (lessonById id user) s := by
  unfold lessonById at h ⊢
  simp only [Program.await_bind] at h ⊢
  refine takesEffect_read h (fun _ => rfl) (fun s' hs => ?_) fun s' _ h' => ?_
  · exact congrArg Except.ok (hs.lessonById id)
  · revert h'
    show ComesTo P M cfg req (Program.onAnswer _ (.ok (s.lessonById id))) s' →
      TakesEffect P M cfg req (Program.onAnswer _ (.ok (s.lessonById id))) s'
    cases s.lessonById id with
    | none => exact takesEffect_send
    | some lesson => exact fun h' => takesEffect_decide h' rfl rfl

theorem takesEffect_progress (h : ComesTo P M cfg req (progress user) s) :
    TakesEffect P M cfg req (progress user) s := by
  unfold progress at h ⊢
  simp only [Program.await_bind] at h ⊢
  exact takesEffect_decide h rfl rfl

/-- A progress write takes effect when it writes, and answers with the list of a later moment. -/
theorem takesEffect_postProgress {body : Json}
    (h : ComesTo P M cfg req (postProgress P req body user) s) :
    TakesEffect P M cfg req (postProgress P req body user) s := by
  unfold postProgress at h ⊢
  cases hv : progressSchema P body.orEmpty with
  | error message =>
    rw [hv] at h
    exact takesEffect_send h
  | ok value =>
    rw [hv] at h
    simp only [Program.await_bind] at h ⊢
    refine takesEffect_read h (fun _ => rfl) (fun s' hs => ?_) fun s' _ h' => ?_
    · exact congrArg Except.ok (hs.lessonById value.lessonId)
    · revert h'
      show ComesTo P M cfg req (Program.onAnswer _ (.ok (s.lessonById value.lessonId))) s' →
        TakesEffect P M cfg req (Program.onAnswer _ (.ok (s.lessonById value.lessonId))) s'
      cases s.lessonById value.lessonId with
      | none => exact takesEffect_send
      | some lesson =>
        intro h'
        have hs := h' s' (.refl s')
        simp only [Program.onAnswer_ok, postProgressFound, Program.await_bind] at hs ⊢
        refine Program.atomic_effect (congrArg Program.Outcome.state hs).symm fun s'' _ _ => ?_
        refine ⟨rfl, fun s₃ _ _ => Program.reports_send ?_ s₃⟩
        exact ⟨_, congrArg Program.Outcome.sent hs, .inr ⟨rfl, rfl, ⟨_, rfl⟩, _, rfl⟩⟩

end Learning

/-! ## Registration and login -/

section Accounts

variable {s : MongoState}

/-- A registration takes effect when it finds its email taken, or when it creates its user. -/
theorem takesEffect_registration (hP : PlatformLaws P) {value : RegisterValue}
    (hv : req.registration P = some value)
    (h : ComesTo P M cfg req (serveMongo P cfg req) s) :
    TakesEffect P M cfg req (serveMongo P cfg req) s := by
  obtain ⟨body, -, -, hs⟩ := registration_eq_some.mp hv
  have heq : serveMongo P cfg req = _ := MongoState.serveMongo_of_registration hv
  have hexec := MongoState.exec_registration (M := M) hP cfg hv
  generalize serveMongo P cfg req = p at h heq ⊢
  subst heq
  cases hfound : s.userByEmail P value.email with
  | some u =>
    refine takesEffect_decide (r := ⟨409, .error "Email already registered"⟩) h rfl ?_
    show registerFound P cfg req value (s.userByEmail P value.email) = _
    rw [hfound]
    rfl
  | none =>
    refine Program.atomic_read rfl fun s' _ _ => ?_
    show TakesEffect P M cfg req (registerFound P cfg req value (s.userByEmail P value.email)) s'
    rw [hfound, registerFound, Program.await_bind]
    have hcreate : (mongoStore P M).perform (createCall P req value) s' = _ :=
      MongoState.perform_createUser hP hs s'
    have halone := hexec s'
    by_cases htaken : P.toLowerCase value.email ∈ s'.emails
    · -- another request took the email meanwhile, and the unique index rejects this one
      rw [if_pos htaken] at hcreate
      refine Program.atomic_read (by rw [hcreate]) fun s'' _ hs'' => ?_
      rw [hcreate]
      intro e he
      rw [registers_of_registration hv, decide_eq_true_eq] at he
      exact hs''.emails.subset (he ▸ htaken)
    · rw [if_neg htaken] at hcreate halone
      refine Program.atomic_effect ?_ fun s'' _ _ => ?_
      · rw [hcreate]
        exact (congrArg Program.Outcome.state halone).symm
      · rw [hcreate]
        exact Program.reports_send ⟨_, congrArg Program.Outcome.sent halone, .refl _⟩ s''

/-- A role that is stored again changes nothing. -/
theorem setRole_of_role {u : User} (hu : s.userById u.id = some u) :
    s.setRole u.id u.role = s := by
  have hupdate : Keyed.update User.id u.id (fun v => { v with role := u.role }) s.users =
      s.users := by
    refine Keyed.update_eq_self fun v hv => ?_
    obtain rfl : u = v := Option.some.inj (hu.symm.trans hv)
    rfl
  rw [MongoState.setRole, hupdate]

/-- The answer to an update of a role: the document after the update. -/
theorem perform_updateUserRole (id role : String) (s : MongoState) :
    (mongoStore P M).perform (.updateUserRole id role) s =
      if M.isObjectId id then
        (.ok ((s.userById id).map fun u => { u with role }), s.setRole id role)
      else (.error (.rejected "Cast to ObjectId failed"), s) := by
  have hfound : ((Keyed.update User.id id (fun u => { u with role }) s.users).find?
      fun u => u.id = id) = (s.userById id).map fun u => { u with role } := by
    refine Keyed.lookup_update_self ?_ s.users
    exact fun _ h => h
  simp only [mongoStore, MongoState.perform, hfound]
  rfl

/-- A login looks its email up. -/
theorem serveMongo_of_login {value : LoginValue} (hv : req.login P = some value) :
    serveMongo P cfg req = Program.call (.findUserByEmail value.email)
      (Program.onAnswer (loginFound P cfg req value)) := by
  have he : req.endpoint ≠ some .health := by
    obtain ⟨body, -, he, -⟩ := login_eq_some.mp hv
    rw [he]
    nofun
  rw [serveMongo_eq_serve P cfg he]
  exact serve_of_login hv

/-- The session that answers a login. -/
abbrev loginSession (P : Platform) (cfg : Config) (req : Request) (user : User) : Response :=
  ⟨200, .session (signToken P cfg user req.seeds.signedAt) (sanitizeUser user)⟩

/-- The login of an account whose password is accepted stores its role, if it asks for another. -/
theorem loginFound_some {value : LoginValue} {user : User}
    (hpass : P.compareSync value.password user.passwordHash ≠ false) :
    loginFound P cfg req value (some user) =
      if requestedRole value ≠ "" ∧ requestedRole value ≠ user.role then
        Program.call (.updateUserRole user.id (requestedRole value))
          (Program.onAnswer (loginAnswer P cfg req))
      else Program.send (loginSession P cfg req user) := by
  simp only [loginFound, if_neg hpass, Program.await_bind]
  rfl

/-- The role of an account is stored, or it is there already: the login that does so runs as if
alone. -/
theorem exec_login_asking {value : LoginValue} {user : User} (hasked : requestedRole value ≠ "")
    (hpass : P.compareSync value.password user.passwordHash ≠ false)
    (hlookup : s.userById user.id = some user) (hobject : M.isObjectId user.id = true) :
    (loginFound P cfg req value (some user)).exec (mongoStore P M) s =
      ⟨.ok (), [loginSession P cfg req { user with role := requestedRole value }],
        s.setRole user.id (requestedRole value)⟩ := by
  have hperform := perform_updateUserRole (P := P) (M := M) user.id (requestedRole value) s
  rw [if_pos hobject, hlookup, Option.map_some] at hperform
  rw [loginFound_some hpass]
  split_ifs with hasks
  · rw [Program.exec_call, hperform]
    rfl
  · have hrole : requestedRole value = user.role := by
      by_contra hne
      exact hasks ⟨hasked, hne⟩
    rw [hrole, setRole_of_role hlookup]
    rfl

/-- A login takes effect when it finds nothing to store, or when it stores its role. -/
theorem takesEffect_login (hsilent : MaySilence P M cfg req) {value : LoginValue}
    (hv : req.login P = some value) (h : ComesTo P M cfg req (serveMongo P cfg req) s) :
    TakesEffect P M cfg req (serveMongo P cfg req) s := by
  have heq : serveMongo P cfg req = _ := serveMongo_of_login hv
  have hexec : ∀ t, (serveMongo P cfg req).exec (mongoStore P M) t =
      (loginFound P cfg req value (t.userByEmail P value.email)).exec (mongoStore P M) t := by
    intro t
    rw [heq, MongoState.exec_findUserByEmail, Program.onAnswer_ok]
  generalize serveMongo P cfg req = p at h heq ⊢
  subst heq
  have hfirst : ∀ r, loginFound P cfg req value (s.userByEmail P value.email) = Program.send r →
      TakesEffect P M cfg req (Program.call (.findUserByEmail value.email)
        (Program.onAnswer (loginFound P cfg req value))) s :=
    fun r hr => takesEffect_decide h rfl hr
  cases hfound : s.userByEmail P value.email with
  | none => exact hfirst _ (by rw [hfound]; rfl)
  | some user =>
    rw [hfound] at hfirst
    by_cases hpass : P.compareSync value.password user.passwordHash = false
    · exact hfirst _ (by simp only [loginFound, if_pos hpass]; rfl)
    · rw [loginFound_some hpass] at hfirst
      split_ifs at hfirst with hasks
      · -- the role is stored at a later moment, at which another login may have stored it too
        refine Program.atomic_read rfl fun s' hids hs => ?_
        show TakesEffect P M cfg req
          (loginFound P cfg req value (s.userByEmail P value.email)) s'
        rw [hfound, loginFound_some hpass, if_pos hasks]
        obtain ⟨user', hfound', haccount⟩ := hs.userByEmail hfound
        have hid : user'.id = user.id := congrArg Account.id haccount
        have hhash : user'.passwordHash = user.passwordHash :=
          congrArg Account.passwordHash haccount
        have hlookup : s'.userById user'.id = some user' :=
          Keyed.lookup_of_mem hids (List.mem_of_find?_eq_some hfound')
        have hperform :=
          perform_updateUserRole (P := P) (M := M) user'.id (requestedRole value) s'
        rw [hlookup, Option.map_some] at hperform
        by_cases hobject : M.isObjectId user'.id = true
        · have halone := hexec s'
          rw [hfound', exec_login_asking hasks.1 (hhash ▸ hpass) hlookup hobject] at halone
          rw [if_pos hobject] at hperform
          rw [← hid]
          refine Program.atomic_effect ?_ fun s'' _ _ => ?_
          · rw [hperform]
            exact (congrArg Program.Outcome.state halone).symm
          · rw [hperform]
            exact Program.reports_send ⟨_, congrArg Program.Outcome.sent halone, .refl _⟩ s''
        · rw [if_neg hobject] at hperform
          rw [← hid]
          refine Program.atomic_read (by rw [hperform]) fun s'' _ _ => ?_
          rw [hperform]
          exact hsilent s''
      · exact hfirst _ rfl

end Accounts

/-! ## Every handler -/

/-- A request that is no valid registration registers nothing, and may end without an answer. -/
theorem maySilence_of_registration (hv : req.registration P = none) : MaySilence P M cfg req := by
  intro s e he
  simp [Request.registers, hv] at he

/-- The readiness of the store decides the answer. -/
theorem takesEffect_ready {s : MongoState} (h : ComesTo P M cfg req ready s) :
    TakesEffect P M cfg req ready s := by
  unfold ready at h ⊢
  simp only [Program.await_bind] at h ⊢
  refine takesEffect_decide
    (r := if s.connected then ⟨200, .ready "ready"⟩ else ⟨503, .ready "not_ready"⟩) h rfl ?_
  show (if s.connected then _ else _) = _
  split_ifs <;> rfl

/-- A registration or a login that is refused by its schema answers at once. -/
theorem register_of_refused {body : Json} (hp : req.payload = .parsed body)
    (he : req.endpoint = some .register) (hr : req.registration P = none) :
    ∃ message, register P cfg req body = sendJson 400 (.error message) := by
  unfold register
  cases hs : registerSchema P body.orEmpty with
  | error message => exact ⟨_, rfl⟩
  | ok value =>
    rw [registration_eq_some.mpr ⟨body, hp, he, hs⟩] at hr
    cases hr

theorem login_of_refused {body : Json} (hp : req.payload = .parsed body)
    (he : req.endpoint = some .login) (hl : req.login P = none) :
    ∃ message, login P cfg req body = sendJson 400 (.error message) := by
  unfold login
  cases hs : loginSchema P body.orEmpty with
  | error message => exact ⟨_, rfl⟩
  | ok value =>
    rw [login_eq_some.mpr ⟨body, hp, he, hs⟩] at hl
    cases hl

/-- **Every handler takes effect at one of its calls.** -/
theorem atomic_serveMongo (hP : PlatformLaws P) (M : Mongoose) (cfg : Config) (req : Request)
    (s : MongoState) : TakesEffect P M cfg req (serveMongo P cfg req) s := by
  have hself : ComesTo P M cfg req (serveMongo P cfg req) s := fun _ _ => rfl
  cases hr : req.registration P with
  | some value => exact takesEffect_registration hP hr hself
  | none =>
    have hsilent : MaySilence P M cfg req := maySilence_of_registration hr
    cases hl : req.login P with
    | some value => exact takesEffect_login hsilent hl hself
    | none =>
      have hroute : ∀ p, serveMongo P cfg req = p → (ComesTo P M cfg req p s →
          TakesEffect P M cfg req p s) → TakesEffect P M cfg req (serveMongo P cfg req) s := by
        intro p hp h
        have hs := hself
        generalize serveMongo P cfg req = q at hp hs ⊢
        subst hp
        exact h hs
      cases hp : req.payload with
      | refused status =>
        refine hroute errorHandler ?_ takesEffect_send
        rw [serveMongo, hp]
      | parsed body =>
        have hserve : serveMongo P cfg req = routers P cfg "mongo" req body := by
          rw [serveMongo, hp]
        unfold routers at hserve
        have hauth : ∀ {next : User → Handler},
            serveMongo P cfg req = authMiddleware P cfg req next →
            (∀ u u' : User, u'.id = u.id → next u' = next u) →
            (∀ user s', ComesTo P M cfg req (next user) s' →
              TakesEffect P M cfg req (next user) s') →
            TakesEffect P M cfg req (serveMongo P cfg req) s :=
          fun heq hid huser => hroute _ heq fun h => takesEffect_authMiddleware hid h huser
        cases he : req.endpoint with
        | none => exact hroute notFoundHandler (by rw [hserve, he]) takesEffect_send
        | some e =>
          rw [he] at hserve
          cases e with
          | health => exact hroute _ hserve takesEffect_send
          | ready => exact hroute _ hserve takesEffect_ready
          | register =>
            obtain ⟨message, hsend⟩ := register_of_refused hp he hr
            exact hroute _ (hserve.trans hsend) takesEffect_send
          | login =>
            obtain ⟨message, hsend⟩ := login_of_refused hp he hl
            exact hroute _ (hserve.trans hsend) takesEffect_send
          | tracks =>
            refine hauth hserve (fun u u' hid => ?_) fun user s' => takesEffect_tracks hsilent
            unfold tracks
            rw [hid]
          | lessons =>
            refine hauth hserve (fun u u' hid => ?_) fun user s' => takesEffect_lessons hsilent _
            unfold lessons
            rw [hid]
          | lesson id =>
            cases id with
            | none => exact hroute _ hserve takesEffect_send
            | some id =>
              refine hauth hserve (fun u u' hid => ?_) fun user s' => takesEffect_lessonById
              unfold lessonById
              rw [hid]
          | postProgress =>
            refine hauth hserve (fun u u' hid => ?_) fun user s' => takesEffect_postProgress
            unfold postProgress postProgressFound progressWrite
            rw [hid]
          | progress =>
            refine hauth hserve (fun u u' hid => ?_) fun user s' => takesEffect_progress
            unfold progress
            rw [hid]

/-! ## Interleavings -/

/-- Requests that run alone, one after another, grow the database. -/
theorem grows_sequential {s₀ : MongoState} {past order : List (ℕ × Request)} (h : past <+: order) :
    (Pool.sequential (mongoMeaning P M cfg) s₀ past).Grows
      (Pool.sequential (mongoMeaning P M cfg) s₀ order) := by
  obtain ⟨rest, rfl⟩ := h
  induction rest using List.reverseRecOn with
  | nil =>
    rw [List.append_nil]
    exact MongoState.Grows.refl _
  | append_singleton rest x ih =>
    rw [← List.append_assoc, Pool.sequential_snoc]
    exact ih.trans (Program.exec_rel MongoState.Grows.refl (fun _ _ _ h h' => h.trans h')
      MongoState.grows_perform _ _)

/-- The ids of the accounts are distinct in a state that a linearization leads to, when the requests
draw distinct ids. -/
theorem ids_nodup_of_linearization (hP : PlatformLaws P) {s₀ : MongoState}
    {order : List (ℕ × Request)} {pool : MongoPool P M}
    (h : Pool.Linearization (mongoMeaning P M cfg) s₀ order pool)
    (hfresh : (s₀.ids ++ (pool.tasks.map Task.request).map fun r => r.seeds.newId).Nodup) :
    pool.state.ids.Nodup := by
  obtain ⟨hold, hnew, hdisjoint⟩ := List.nodup_append.mp hfresh
  have hsub := MongoState.ids_run (M := M) hP cfg s₀ (order.map Prod.snd)
  rw [h.state]
  refine hsub.nodup (List.nodup_append.mpr ⟨hold, h.nodup_map hnew, fun id hid id' hid' => ?_⟩)
  obtain ⟨r, hr, rfl⟩ := List.mem_map.mp hid'
  exact hdisjoint id hid _ (List.mem_map.mpr ⟨r, h.mem_requests hr, rfl⟩)

/-- Every interleaving has a linearization, which extends those of the earlier moments. -/
theorem linearization_runMongo (hP : PlatformLaws P) (M : Mongoose) (cfg : Config)
    (s₀ : MongoState) (as : List (Action Request))
    (hfresh : (s₀.ids ++ (as.filterMap Pool.arrival).map fun r => r.seeds.newId).Nodup) :
    ∃ order, Pool.Linearization (mongoMeaning P M cfg) s₀ order (runMongo P M cfg s₀ as) ∧
      ∀ bs, bs <+: as → ∃ order', order' <+: order ∧
        Pool.Linearization (mongoMeaning P M cfg) s₀ order' (runMongo P M cfg s₀ bs) := by
  refine Pool.linearizable (K := mongoEnvironment) (fun c s => MongoState.grows_perform c s)
    (fun r s _ => atomic_serveMongo hP M cfg r s) (fun r s s' hs hsilent e he => ?_) as ?_
  · exact hs.emails.subset (hsilent e he)
  · intro bs order hbs h
    refine ids_nodup_of_linearization hP h (hfresh.sublist ?_)
    rw [Pool.map_request_history]
    exact (List.Sublist.refl _).append ((hbs.sublist.filterMap _).map _)

/-- **The API on the MongoDB store is linearizable.** However the handlers of the requests are
interleaved, those that have taken effect have an order in which, run alone one after another, they
lead to the database and are answered as they were, up to the list that a progress write returns.
The order has every request that was answered, and it respects real time: a request that was
answered at some moment comes before those that arrived after it. The ids that the requests draw for
new accounts are distinct and new. -/
theorem mongo_linearizable (hP : PlatformLaws P) (M : Mongoose) (cfg : Config) (s₀ : MongoState)
    (as : List (Action Request))
    (hfresh : (s₀.ids ++ (as.filterMap Pool.arrival).map fun r => r.seeds.newId).Nodup) :
    ∃ order, Pool.Linearization (mongoMeaning P M cfg) s₀ order (runMongo P M cfg s₀ as) ∧
      ∀ bs, bs <+: as → ∀ i t, (runMongo P M cfg s₀ bs).tasks[i]? = some t → t.outputs ≠ [] →
        ∀ j r past, (runMongo P M cfg s₀ bs).tasks.length ≤ j → past ++ [(j, r)] <+: order →
          i ∈ past.map Prod.fst := by
  obtain ⟨order, h, hprefixes⟩ := linearization_runMongo hP M cfg s₀ as hfresh
  refine ⟨order, h, fun bs hbs i t ht hanswered j r past hj hpast => ?_⟩
  obtain ⟨order', hle, h'⟩ := hprefixes bs hbs
  exact h'.precedes hle ht hanswered hj hpast

/-- Two registrations of one email whose handlers overlap. -/
theorem registrations_linearize :
    let s₀ : MongoState := ⟨true, [], [], []⟩
    let pool := runMongo plainPlatform plainMongoose plainConfig s₀
      (adaSchedule [0, 1, 0, 1, 0, 1])
    ∃ order, Pool.Linearization (mongoMeaning plainPlatform plainMongoose plainConfig) s₀ order
      pool := by
  intro s₀ pool
  obtain ⟨order, h, -⟩ := mongo_linearizable plain_platformLaws plainMongoose plainConfig s₀
    (adaSchedule [0, 1, 0, 1, 0, 1]) (by decide)
  exact ⟨order, h⟩

end LanguageGuru
