import LanguageGuru.Backend.LessonService
import LanguageGuru.Backend.Schemas

/-!
# Route handlers

The handlers of the three routers and the authentication middleware, as programs over a store:
each `await` of a store operation is a call, each `res.json` an output. An asynchronous handler
that throws, or that does not catch the rejection of a store call, is a program that fails.

## Main definitions

* `signToken`, `sanitizeUser`: the authentication service
* `authMiddleware`: authentication in front of a handler
* `register`, `login`, `tracks`, `lessons`, `lessonById`, `postProgress`, `progress`, `health`,
  `ready`: the handlers
* `errorHandler`, `notFoundHandler`
* `routers`: the handler of a request
-/

namespace LanguageGuru

open Process

/-- An asynchronous handler. -/
abbrev Handler := Program Answer Failure Response Unit

/-- `await store.operation(...)`. -/
abbrev awaitStore (c : StoreCall) : Program Answer Failure Response (Answer c) := Program.await c

/-- `res.status(status).json(body)`. -/
def sendJson (status : ℕ) (body : Body) : Handler := Program.send ⟨status, body⟩

variable (P : Platform) (cfg : Config)

/-! ## The authentication service -/

def signToken (user : User) (now : Time) : String :=
  P.jwtSign ⟨user.id, user.email⟩ cfg.jwtSecret cfg.jwtExpiresIn now

def sanitizeUser (user : User) : SanitizedUser :=
  { id := user.id
    username := user.username
    name := user.username
    email := user.email
    role := user.role
    targetRole := user.role
    createdAt := user.createdAt }

/-! ## Error handlers -/

def notFoundHandler : Handler := sendJson 404 (.error "Route not found")

def errorHandler : Handler := sendJson 500 (.error "Internal Server Error")

/-! ## Authentication -/

/-- The token of an `Authorization` header that starts with `Bearer `. -/
def bearerToken (authHeader : String) : Option String :=
  if "Bearer ".toList.isPrefixOf authHeader.toList then
    some (String.ofList (authHeader.toList.drop 7))
  else none

/-- The body of the `try` block: verify the token and look its subject up. -/
def authenticate (token : String) (now : Time) : Program Answer Failure Response (Option User) :=
  match P.jwtVerify token cfg.jwtSecret now with
  | some decoded => awaitStore (.findUserById decoded.sub)
  | none => .fail (.thrown "invalid token")

/-- What follows the `try` block: no user, a user, or the `catch`. -/
def authenticated (next : User → Handler) : Except Failure (Option User) → Handler
  | .ok (some user) => next user
  | .ok none => sendJson 401 (.error "Unauthorized")
  | .error _ => sendJson 401 (.error "Invalid token")

/-- The authentication middleware in front of the handler `next`. The handler runs after
`next()`, outside the `try` block: its own failures are not caught here. -/
def authMiddleware (req : Request) (next : User → Handler) : Handler :=
  match bearerToken (req.authorization.getD "") with
  | none => sendJson 401 (.error "Unauthorized")
  | some token =>
    -- a header that ends after `Bearer ` leaves the empty token, which is falsy
    if token = "" then sendJson 401 (.error "Unauthorized")
    else (authenticate P cfg token req.seeds.verifiedAt).attempt >>= authenticated next

/-! ## Registration and login -/

/-- The argument of `createUser` that `register` builds. -/
def newUser (value : RegisterValue) (salt : String) : NewUser :=
  { username := trim (orElse value.username (value.name.getD ""))
    email := P.toLowerCase value.email
    role := trim (orElse value.role (orElse value.targetRole "Software Engineer"))
    passwordHash := P.hashSync value.password salt }

/-- `register` after the user is created. -/
def registerCreated (req : Request) (user : User) : Handler :=
  sendJson 201 (.session (signToken P cfg user req.seeds.signedAt) (sanitizeUser user))

/-- `register` after the email is looked up. -/
def registerFound (req : Request) (value : RegisterValue) (existing : Option User) : Handler :=
  match existing with
  | some _ => sendJson 409 (.error "Email already registered")
  | none => do
    -- the lookup and the creation are two calls: another request may come between them
    let user : User ← awaitStore
      (.createUser (newUser P value req.seeds.salt) req.seeds.newId req.seeds.storedAt)
    registerCreated P cfg req user

def register (req : Request) (body : Json) : Handler :=
  match registerSchema P body.orEmpty with
  | .error message => sendJson 400 (.error message)
  | .ok value => do
    let existing : Option User ← awaitStore (.findUserByEmail value.email)
    registerFound P cfg req value existing

/-- The role a login asks for; empty when it asks for none. -/
def requestedRole (value : LoginValue) : String :=
  trim (orElse value.role (orElse value.targetRole ""))

/-- `login` with the user it answers with; `signToken` throws on `null`. -/
def loginAnswer (req : Request) (effectiveUser : Option User) : Handler :=
  match effectiveUser with
  | none => .fail (.thrown "Cannot read properties of null (reading 'id')")
  | some user =>
    sendJson 200 (.session (signToken P cfg user req.seeds.signedAt) (sanitizeUser user))

/-- `login` after the email is looked up. -/
def loginFound (req : Request) (value : LoginValue) (found : Option User) : Handler :=
  match found with
  | none => sendJson 401 (.error "Invalid email or password")
  | some user =>
    if P.compareSync value.password user.passwordHash = false then
      sendJson 401 (.error "Invalid email or password")
    else if requestedRole value ≠ "" ∧ requestedRole value ≠ user.role then do
      -- the role is stored before the session is signed
      let effectiveUser : Option User ← awaitStore (.updateUserRole user.id (requestedRole value))
      loginAnswer P cfg req effectiveUser
    else loginAnswer P cfg req (some user)

def login (req : Request) (body : Json) : Handler :=
  match loginSchema P body.orEmpty with
  | .error message => sendJson 400 (.error message)
  | .ok value => do
    let found : Option User ← awaitStore (.findUserByEmail value.email)
    loginFound P cfg req value found

/-! ## Learning -/

def tracks (user : User) : Handler := do
  let lessons : List Lesson ← awaitStore (.getLessons {})
  let progress : List ProgressRecord ← awaitStore (.getProgressForUser user.id)
  sendJson 200 (.tracks (buildTrackStats .double lessons progress))

def lessons (req : Request) (user : User) : Handler := do
  let lessons : List Lesson ← awaitStore (.getLessons req.query)
  let progress : List ProgressRecord ← awaitStore (.getProgressForUser user.id)
  sendJson 200 (.lessons (lessons.map fun l => toLessonResponse l (progressMap progress)))

def lessonById (id : String) (user : User) : Handler := do
  let lesson : Option Lesson ← awaitStore (.getLessonById id)
  match lesson with
  | none => sendJson 404 (.error "Lesson not found")
  | some lesson => do
    let progress : List ProgressRecord ← awaitStore (.getProgressForUser user.id)
    sendJson 200 (.lesson (toLessonResponse lesson (progressMap progress)))

/-- The argument of `upsertProgress` that `postProgress` builds. -/
def progressWrite (user : User) (value : ProgressValue) : ProgressWrite :=
  { userId := user.id
    lessonId := value.lessonId
    completed := value.completed
    score := max 0 (min 100 value.score) }

/-- `postProgress` after the lesson is looked up. -/
def postProgressFound (req : Request) (user : User) (value : ProgressValue)
    (lesson : Option Lesson) : Handler :=
  match lesson with
  | none => sendJson 404 (.error "Lesson not found")
  | some _ => do
    let _ ← awaitStore (.upsertProgress (progressWrite user value) req.seeds.storedAt)
    -- the answer is the whole list of the user, read again
    let progress : List ProgressRecord ← awaitStore (.getProgressForUser user.id)
    sendJson 201 (.progress (formatProgress progress))

def postProgress (req : Request) (body : Json) (user : User) : Handler :=
  match progressSchema P body.orEmpty with
  | .error message => sendJson 400 (.error message)
  | .ok value => do
    let lesson : Option Lesson ← awaitStore (.getLessonById value.lessonId)
    postProgressFound req user value lesson

def progress (user : User) : Handler := do
  let progress : List ProgressRecord ← awaitStore (.getProgressForUser user.id)
  sendJson 200 (.progress (formatProgress progress))

/-! ## Health -/

def health (mode : String) (req : Request) : Handler :=
  sendJson 200 (.health cfg.env mode req.seeds.receivedAt req.seeds.uptimeSeconds)

def ready : Handler := do
  let ready : Bool ← awaitStore .ready
  if ready then sendJson 200 (.ready "ready") else sendJson 503 (.ready "not_ready")

/-- The handler of a request with the parsed body `body`. A path parameter that cannot be decoded
is an error that Express passes to the error handler. -/
def routers (mode : String) (req : Request) (body : Json) : Handler :=
  match req.endpoint with
  | none => notFoundHandler
  | some .health => health cfg mode req
  | some .ready => ready
  | some .register => register P cfg req body
  | some .login => login P cfg req body
  | some .tracks => authMiddleware P cfg req tracks
  | some .lessons => authMiddleware P cfg req (lessons req)
  | some (.lesson (some id)) => authMiddleware P cfg req (lessonById id)
  | some (.lesson none) => errorHandler
  | some .postProgress => authMiddleware P cfg req (postProgress P req body)
  | some .progress => authMiddleware P cfg req progress

end LanguageGuru
