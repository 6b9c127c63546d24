import LanguageGuru.Backend.App
import LanguageGuru.Backend.MemoryStore
import LanguageGuru.Process.Transition

/-!
# Requests on the memory store, one after another

What each route answers on the memory store and what it does to the state when it runs without
interference, and runs of requests executed one after another. The requests are those that pass
the CORS middleware and the rate limiter.

## Main definitions

* `serve P cfg`: the handler of a request that passes the middlewares
* `MemoryState.identify`: the user of a request, as the authentication middleware finds it
* `MemoryState.respond`, `MemoryState.next`: the responses to a request, and the state it leaves
* `MemoryState.after`: the state after a list of requests

## Main results

* `createApp_eq_serve`: the application runs `serve` for these requests, on either store
* `exec_register`, `exec_login`, `exec_postProgress` and the like: the routes on the memory store
* `next_cases`: a request leaves the state alone, adds a user, sets a role, or writes progress
-/

namespace LanguageGuru

open Process

variable (P : Platform) (cfg : Config)

/-- The handler of a request on the memory store, behind the CORS middleware and the rate
limiter. -/
def serve (req : Request) : Handler :=
  match req.payload with
  | .parsed body => routers P cfg "memory" req body
  | .refused _ => errorHandler

/-- The limiter decides by its counters alone. -/
theorem rateLimit_verdict (requestLimit : ℕ) (req : Request) {x y : Exchange}
    (h : y.requestsByIp = x.requestsByIp) :
    (rateLimit requestLimit req y).2 = (rateLimit requestLimit req x).2 := by
  simp only [rateLimit, h]
  split_ifs <;> rfl

/-- Only the health route shows the mode of the store. -/
theorem routers_mode {mode : String} {req : Request}
    (hmode : mode = "memory" ∨ req.endpoint ≠ some .health) (body : Json) :
    routers P cfg mode req body = routers P cfg "memory" req body := by
  rcases hmode with rfl | he
  · rfl
  · unfold routers
    cases hq : req.endpoint with
    | none => rfl
    | some e =>
      cases e with
      | health => exact absurd hq he
      | lesson id => cases id <;> rfl
      | _ => rfl

/-- The application runs `serve` for a request that is no preflight and passes the limiter. -/
theorem createApp_eq_serve {mode : String} {req : Request} {x : Exchange}
    (hmode : mode = "memory" ∨ req.endpoint ≠ some .health) (hm : req.method ≠ .options)
    (hl : (rateLimit cfg.requestLimit req x).2 = .next) :
    (createApp P cfg mode req x).2 = serve P cfg req := by
  cases hp : req.payload with
  | refused status => simp [createApp, middlewares, dispatch, expressJson, hp, serve]
  | parsed body =>
    obtain ⟨x', hx', hc⟩ : ∃ x' : Exchange, x'.requestsByIp = x.requestsByIp ∧
        corsMiddleware cfg req x = (x', .next) := by
      simp only [corsMiddleware, if_neg hm]
      refine ⟨_, ?_, rfl⟩
      cases allowOrigin cfg req.origin <;> rfl
    have hs : (securityHeaders req x').1.requestsByIp = x.requestsByIp := hx'
    have hr := rateLimit_verdict cfg.requestLimit req hs
    rw [hl] at hr
    simp only [createApp, middlewares, dispatch, expressJson, hp, hc, securityHeaders,
      requestLogger] at hr ⊢
    rcases hv : rateLimit cfg.requestLimit req (securityHeaders req x').1 with ⟨x'', v⟩
    simp only [securityHeaders] at hv
    rw [hv] at hr
    subst hr
    simp [hv, serve, hp, Request.body, routers_mode P cfg hmode]

namespace MemoryState

variable (s : MemoryState)

/-- The user of a request, or the error of the authentication middleware. -/
def identify (req : Request) : Except String User :=
  match bearerToken (req.authorization.getD "") with
  | none => .error "Unauthorized"
  | some token =>
    if token = "" then .error "Unauthorized"
    else
      match P.jwtVerify token cfg.jwtSecret req.seeds.verifiedAt with
      | none => .error "Invalid token"
      | some decoded =>
        match s.userById decoded.sub with
        | none => .error "Unauthorized"
        | some user => .ok user

/-- The responses to a request that runs without interference. -/
def respond (req : Request) : List Response :=
  ((serve P cfg req).exec (memoryStore P) s).sent

/-- The state that a request leaves when it runs without interference. -/
def next (req : Request) : MemoryState :=
  ((serve P cfg req).exec (memoryStore P) s).state

/-- The state after requests executed one after another. -/
def after (reqs : List Request) : MemoryState := run (fun s r => next P cfg s r) s reqs

@[simp] theorem after_nil : s.after P cfg [] = s := rfl

@[simp] theorem after_cons (r : Request) (reqs : List Request) :
    s.after P cfg (r :: reqs) = (s.next P cfg r).after P cfg reqs := rfl

theorem after_append (reqs reqs' : List Request) :
    s.after P cfg (reqs ++ reqs') = (s.after P cfg reqs).after P cfg reqs' :=
  run_append _ s reqs reqs'

theorem after_snoc (reqs : List Request) (r : Request) :
    s.after P cfg (reqs ++ [r]) = (s.after P cfg reqs).next P cfg r :=
  run_snoc _ s reqs r

end MemoryState

/-! ## The routes on the memory store -/

section Routes

variable (req : Request) (body : Json) (s : MemoryState)

@[simp] theorem exec_sendJson (status : ℕ) (b : Body) :
    (sendJson status b).exec (memoryStore P) s = ⟨.ok (), [⟨status, b⟩], s⟩ := rfl

theorem exec_authMiddleware (next : User → Handler) :
    (authMiddleware P cfg req next).exec (memoryStore P) s =
      match s.identify P cfg req with
      | .ok user => (next user).exec (memoryStore P) s
      | .error message => ⟨.ok (), [⟨401, .error message⟩], s⟩ := by
  unfold authMiddleware MemoryState.identify
  cases bearerToken (req.authorization.getD "") with
  | none => rfl
  | some token =>
    dsimp only
    by_cases ht : token = ""
    · rw [if_pos ht, if_pos ht]
      rfl
    · rw [if_neg ht, if_neg ht, authenticate]
      cases P.jwtVerify token cfg.jwtSecret req.seeds.verifiedAt with
      | none => rfl
      | some decoded =>
        simp only [Program.await, Program.attempt_call, Program.call_bind, exec_findUserById,
          Program.onAnswer_ok, Program.attempt_done, Program.done_bind]
        cases s.userById decoded.sub with
        | none => rfl
        | some user => rfl

/-- The user that a registration creates. -/
def createdUser (value : RegisterValue) : User :=
  (newUser P value req.seeds.salt).record req.seeds.newId req.seeds.storedAt

theorem exec_register :
    (register P cfg req body).exec (memoryStore P) s =
      match registerSchema P body.orEmpty with
      | .error message => ⟨.ok (), [⟨400, .error message⟩], s⟩
      | .ok value =>
        match s.userByEmail P value.email with
        | some _ => ⟨.ok (), [⟨409, .error "Email already registered"⟩], s⟩
        | none =>
          let u := createdUser P req value
          ⟨.ok (), [⟨201, .session (signToken P cfg u req.seeds.signedAt) (sanitizeUser u)⟩],
            s.addUser u⟩ := by
  unfold register
  cases registerSchema P body.orEmpty with
  | error message => rfl
  | ok value =>
    simp only [Program.await_bind, exec_findUserByEmail, Program.onAnswer_ok]
    cases s.userByEmail P value.email with
    | none =>
      simp only [registerFound, Program.await_bind, exec_createUser, Program.onAnswer_ok]
      rfl
    | some u => rfl

@[simp] theorem exec_loginAnswer_some (u : User) :
    (loginAnswer P cfg req (some u)).exec (memoryStore P) s =
      ⟨.ok (), [⟨200, .session (signToken P cfg u req.seeds.signedAt) (sanitizeUser u)⟩], s⟩ := rfl

theorem exec_loginFound (value : LoginValue) (user : User) :
    (loginFound P cfg req value (some user)).exec (memoryStore P) s =
      if P.compareSync value.password user.passwordHash = false then
        ⟨.ok (), [⟨401, .error "Invalid email or password"⟩], s⟩
      else if requestedRole value ≠ "" ∧ requestedRole value ≠ user.role then
        (loginAnswer P cfg req ((s.userById user.id).map fun u =>
          { u with role := requestedRole value })).exec (memoryStore P)
          (s.setRole user.id (requestedRole value))
      else (loginAnswer P cfg req (some user)).exec (memoryStore P) s := by
  unfold loginFound
  dsimp only
  split_ifs
  · rfl
  · simp only [Program.await_bind, exec_updateUserRole, Program.onAnswer_ok]
  · rfl

theorem exec_login :
    (login P cfg req body).exec (memoryStore P) s =
      match loginSchema P body.orEmpty with
      | .error message => ⟨.ok (), [⟨400, .error message⟩], s⟩
      | .ok value =>
        (loginFound P cfg req value (s.userByEmail P value.email)).exec (memoryStore P) s := by
  unfold login
  cases loginSchema P body.orEmpty with
  | error message => rfl
  | ok value => simp only [Program.await_bind, exec_findUserByEmail, Program.onAnswer_ok]

theorem exec_tracks (user : User) :
    (tracks user).exec (memoryStore P) s =
      ⟨.ok (), [⟨200, .tracks (buildTrackStats .double s.lessons (s.progressOf user.id))⟩], s⟩ := by
  have hall : s.lessons.filter (Filters.admits {}) = s.lessons :=
    List.filter_eq_self.mpr fun _ _ => rfl
  simp only [tracks, Program.await_bind, exec_getLessons, exec_getProgressForUser,
    Program.onAnswer_ok, hall, exec_sendJson]

theorem exec_lessons (user : User) :
    (lessons req user).exec (memoryStore P) s =
      ⟨.ok (), [⟨200, .lessons ((s.lessons.filter req.query.admits).map fun l =>
        toLessonResponse l (progressMap (s.progressOf user.id)))⟩], s⟩ := by
  simp only [lessons, Program.await_bind, exec_getLessons, exec_getProgressForUser,
    Program.onAnswer_ok, exec_sendJson]

theorem exec_lessonById (id : String) (user : User) :
    (lessonById id user).exec (memoryStore P) s =
      match s.lessonById id with
      | none => ⟨.ok (), [⟨404, .error "Lesson not found"⟩], s⟩
      | some lesson =>
        ⟨.ok (), [⟨200, .lesson (toLessonResponse lesson
          (progressMap (s.progressOf user.id)))⟩], s⟩ := by
  simp only [lessonById, Program.await_bind, exec_getLessonById, Program.onAnswer_ok]
  cases s.lessonById id with
  | none => rfl
  | some lesson =>
    simp only [exec_getProgressForUser, Program.onAnswer_ok, exec_sendJson]

theorem exec_postProgress (user : User) :
    (postProgress P req body user).exec (memoryStore P) s =
      match progressSchema P body.orEmpty with
      | .error message => ⟨.ok (), [⟨400, .error message⟩], s⟩
      | .ok value =>
        match s.lessonById value.lessonId with
        | none => ⟨.ok (), [⟨404, .error "Lesson not found"⟩], s⟩
        | some _ =>
          let s' := s.writeProgress (progressWrite user value) req.seeds.storedAt
          ⟨.ok (), [⟨201, .progress (formatProgress (s'.progressOf user.id))⟩], s'⟩ := by
  unfold postProgress
  cases progressSchema P body.orEmpty with
  | error message => rfl
  | ok value =>
    simp only [Program.await_bind, exec_getLessonById, Program.onAnswer_ok]
    cases s.lessonById value.lessonId with
    | none => rfl
    | some lesson =>
      simp only [postProgressFound, Program.await_bind, exec_upsertProgress,
        exec_getProgressForUser, Program.onAnswer_ok, exec_sendJson]

theorem exec_progress (user : User) :
    (progress user).exec (memoryStore P) s =
      ⟨.ok (), [⟨200, .progress (formatProgress (s.progressOf user.id))⟩], s⟩ := by
  simp only [progress, Program.await_bind, exec_getProgressForUser, Program.onAnswer_ok,
    exec_sendJson]

/-! ## What a request changes -/

variable {req body s}

/-- The request is a registration that creates an account. -/
def MemoryState.Registers (s : MemoryState) (req : Request) (value : RegisterValue) : Prop :=
  ∃ body, req.payload = .parsed body ∧ req.endpoint = some .register ∧
    registerSchema P body.orEmpty = .ok value ∧ s.userByEmail P value.email = none

/-- The request is a login of the account `user` that asks for another role. -/
def MemoryState.ChangesRole (s : MemoryState) (req : Request) (value : LoginValue)
    (user : User) : Prop :=
  ∃ body, req.payload = .parsed body ∧ req.endpoint = some .login ∧
    loginSchema P body.orEmpty = .ok value ∧ s.userByEmail P value.email = some user ∧
    requestedRole value ≠ ""

/-- The request is an accepted write of the progress of `user`. -/
def MemoryState.Writes (s : MemoryState) (req : Request) (value : ProgressValue)
    (user : User) : Prop :=
  ∃ body, req.payload = .parsed body ∧ req.endpoint = some .postProgress ∧
    s.identify P cfg req = .ok user ∧ progressSchema P body.orEmpty = .ok value ∧
    (s.lessonById value.lessonId).isSome

/-- The routes behind the authentication middleware leave the state alone when their handlers
do. -/
theorem state_authMiddleware {next : User → Handler}
    (h : ∀ user, s.identify P cfg req = .ok user →
      ((next user).exec (memoryStore P) s).state = s) :
    ((authMiddleware P cfg req next).exec (memoryStore P) s).state = s := by
  rw [exec_authMiddleware]
  cases hi : s.identify P cfg req with
  | error message => rfl
  | ok user => exact h user hi

theorem state_register (req : Request) (body : Json) (s : MemoryState) :
    ((register P cfg req body).exec (memoryStore P) s).state = s ∨
      ∃ value, registerSchema P body.orEmpty = .ok value ∧
        s.userByEmail P value.email = none ∧
        ((register P cfg req body).exec (memoryStore P) s).state =
          s.addUser (createdUser P req value) := by
  rw [exec_register]
  cases hv : registerSchema P body.orEmpty with
  | error message => exact .inl rfl
  | ok value =>
    cases hu : s.userByEmail P value.email with
    | some user => exact .inl (by simp [hu])
    | none => exact .inr ⟨value, rfl, hu, by simp [hu]⟩

theorem state_loginAnswer (user : Option User) :
    ((loginAnswer P cfg req user).exec (memoryStore P) s).state = s := by
  cases user <;> rfl

theorem state_login (req : Request) (body : Json) (s : MemoryState) :
    ((login P cfg req body).exec (memoryStore P) s).state = s ∨
      ∃ value user, loginSchema P body.orEmpty = .ok value ∧
        s.userByEmail P value.email = some user ∧ requestedRole value ≠ "" ∧
        ((login P cfg req body).exec (memoryStore P) s).state =
          s.setRole user.id (requestedRole value) := by
  rw [exec_login]
  cases hv : loginSchema P body.orEmpty with
  | error message => exact .inl rfl
  | ok value =>
    cases hu : s.userByEmail P value.email with
    | none => exact .inl (by simp only [hu]; rfl)
    | some user =>
      simp only [hu, exec_loginFound]
      split_ifs with hp hr
      · exact .inl rfl
      · exact .inr ⟨value, user, rfl, hu, hr.1, state_loginAnswer P cfg _⟩
      · exact .inl (state_loginAnswer P cfg _)

theorem state_postProgress (req : Request) (body : Json) (s : MemoryState) (user : User) :
    ((postProgress P req body user).exec (memoryStore P) s).state = s ∨
      ∃ value, progressSchema P body.orEmpty = .ok value ∧
        (s.lessonById value.lessonId).isSome ∧
        ((postProgress P req body user).exec (memoryStore P) s).state =
          s.writeProgress (progressWrite user value) req.seeds.storedAt := by
  rw [exec_postProgress]
  cases hv : progressSchema P body.orEmpty with
  | error message => exact .inl rfl
  | ok value =>
    cases hl : s.lessonById value.lessonId with
    | none => exact .inl (by simp [hl])
    | some lesson => exact .inr ⟨value, rfl, by simp [hl], by simp [hl]⟩

/-- **A request leaves the state alone, creates an account, changes a role, or writes
progress.** -/
theorem next_cases (s : MemoryState) (req : Request) :
    s.next P cfg req = s ∨
    (∃ value, s.Registers P req value ∧
      s.next P cfg req = s.addUser (createdUser P req value)) ∨
    (∃ value user, s.ChangesRole P req value user ∧
      s.next P cfg req = s.setRole user.id (requestedRole value)) ∨
    (∃ value user, s.Writes P cfg req value user ∧
      s.next P cfg req = s.writeProgress (progressWrite user value) req.seeds.storedAt) := by
  unfold MemoryState.next serve
  cases hp : req.payload with
  | refused status => exact .inl rfl
  | parsed body =>
    unfold routers
    cases he : req.endpoint with
    | none => exact .inl rfl
    | some e =>
      cases e with
      | health => exact .inl rfl
      | ready => exact .inl rfl
      | register =>
        rcases state_register P cfg req body s with h | ⟨value, hv, hu, h⟩
        · exact .inl h
        · exact .inr (.inl ⟨value, ⟨body, hp, he, hv, hu⟩, h⟩)
      | login =>
        rcases state_login P cfg req body s with
          h | ⟨value, user, hv, hu, hr, h⟩
        · exact .inl h
        · exact .inr (.inr (.inl ⟨value, user, ⟨body, hp, he, hv, hu, hr⟩, h⟩))
      | tracks => exact .inl (state_authMiddleware P cfg fun user _ => by rw [exec_tracks])
      | lessons => exact .inl (state_authMiddleware P cfg fun user _ => by rw [exec_lessons])
      | lesson id =>
        cases id with
        | none => exact .inl rfl
        | some id =>
          refine .inl (state_authMiddleware P cfg fun user _ => ?_)
          rw [exec_lessonById]
          cases s.lessonById id <;> rfl
      | progress => exact .inl (state_authMiddleware P cfg fun user _ => by rw [exec_progress])
      | postProgress =>
        cases hi : s.identify P cfg req with
        | error message =>
          exact .inl (state_authMiddleware P cfg fun user h => by rw [hi] at h; cases h)
        | ok user =>
          dsimp only
          rw [exec_authMiddleware, hi]
          rcases state_postProgress P req body s user with
            h | ⟨value, hv, hl, h⟩
          · exact .inl h
          · exact .inr (.inr (.inr ⟨value, user, ⟨body, hp, he, hi, hv, hl⟩, h⟩))

end Routes

end LanguageGuru
