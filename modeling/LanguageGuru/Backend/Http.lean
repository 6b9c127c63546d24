import LanguageGuru.Backend.Store

/-!
# Requests and responses

A request as Express hands it to the middlewares, and the responses that the handlers build.
Everything that is read from a clock or a random generator while a request is served is part of
the request's `Seeds`.

## Main definitions

* `Json`, `Body`: parsed request bodies, and response bodies
* `Request`, `Response`
* `Endpoint`, `Request.endpoint`: the routes, and the route a request takes
-/

namespace LanguageGuru

inductive Json where
  | null
  | bool (b : Bool)
  | num (q : ℚ)
  | str (s : String)
  | arr (xs : List Json)
  | obj (fields : List (String × Json))

/-- `body || {}`. -/
def Json.orEmpty : Json → Json
  | .null => .obj []
  | .bool false => .obj []
  | .num q => if q = 0 then .obj [] else .num q
  | .str s => if s = "" then .obj [] else .str s
  | j => j

inductive Method where
  | get
  | head
  | post
  | options
  | other (name : String)
  deriving DecidableEq, Repr

/-- What `express.json` made of the body: the parsed value (an empty object when there is no JSON
body), or a refusal with the status of its error. -/
inductive Payload where
  | parsed (body : Json)
  | refused (status : ℕ)

/-- What the clock and the random generators give while a request is served. -/
structure Seeds where
  /-- The clock of the rate limiter and of the health route. -/
  receivedAt : Time
  /-- The clock of `jwt.verify`. -/
  verifiedAt : Time
  /-- The clock of the store. -/
  storedAt : Time
  /-- The clock of `jwt.sign`. -/
  signedAt : Time
  /-- The id that `createUser` draws. -/
  newId : String
  /-- The salt that `hashSync` draws. -/
  salt : String
  uptimeSeconds : ℕ
  deriving Repr

structure Request where
  method : Method
  /-- The decoded segments of the path as the router compares them; `none` where the
  percent-encoding is malformed. -/
  path : List (Option String)
  ip : String
  origin : Option String
  authorization : Option String
  query : Filters
  payload : Payload
  seeds : Seeds

/-- The routes of the three routers. -/
inductive Endpoint where
  | health
  | ready
  | register
  | login
  | tracks
  | lessons
  | lesson (id : Option String)
  | postProgress
  | progress
  deriving DecidableEq, Repr

/-- The route registered for a method and a path; a `HEAD` request takes the `GET` route. The router
decodes the id of a lesson before it compares methods, so with every method a lesson id that cannot
be decoded takes the route of the lesson. A preflight does not come as far as the routers. -/
def endpoint : Method → List (Option String) → Option Endpoint
  | .options, _ => none
  | _, [some "api", some "lessons", none] => some (.lesson none)
  | .get, [some "api", some "health"] => some .health
  | .head, [some "api", some "health"] => some .health
  | .get, [some "api", some "ready"] => some .ready
  | .head, [some "api", some "ready"] => some .ready
  | .post, [some "api", some "auth", some "register"] => some .register
  | .post, [some "api", some "auth", some "login"] => some .login
  | .get, [some "api", some "tracks"] => some .tracks
  | .head, [some "api", some "tracks"] => some .tracks
  | .get, [some "api", some "lessons"] => some .lessons
  | .head, [some "api", some "lessons"] => some .lessons
  | .get, [some "api", some "lessons", some id] => some (.lesson (some id))
  | .head, [some "api", some "lessons", some id] => some (.lesson (some id))
  | .post, [some "api", some "progress"] => some .postProgress
  | .get, [some "api", some "progress"] => some .progress
  | .head, [some "api", some "progress"] => some .progress
  | _, _ => none

def Request.endpoint (req : Request) : Option Endpoint :=
  LanguageGuru.endpoint req.method req.path

/-- A user as the responses show it. -/
structure SanitizedUser where
  id : String
  username : String
  name : String
  email : String
  role : String
  targetRole : String
  createdAt : Time
  deriving DecidableEq, Repr

/-- A lesson with the user's progress on it. -/
structure LessonResponse extends Lesson where
  completed : Bool
  score : Option ℚ
  deriving DecidableEq, Repr

/-- An entry of the track statistics. -/
structure Track where
  trackId : String
  trackName : String
  totalLessons : ℕ
  completedLessons : ℕ
  averageScore : ℤ
  totalScore : ℚ
  scoredCount : ℕ
  deriving DecidableEq, Repr

structure ProgressResponse where
  lessonId : String
  completed : Bool
  score : ℚ
  updatedAt : Time
  deriving DecidableEq, Repr

/-- The JSON bodies of the responses. -/
inductive Body where
  | error (message : String)
  | health (env datastore : String) (timestamp : Time) (uptimeSeconds : ℕ)
  | ready (status : String)
  | session (token : String) (user : SanitizedUser)
  | tracks (tracks : List Track)
  | lessons (lessons : List LessonResponse)
  | lesson (lesson : LessonResponse)
  | progress (progress : List ProgressResponse)
  | empty
  deriving DecidableEq, Repr

structure Response where
  status : ℕ
  body : Body
  deriving DecidableEq, Repr

end LanguageGuru
