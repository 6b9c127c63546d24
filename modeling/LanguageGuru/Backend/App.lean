import LanguageGuru.Backend.Routes

/-!
# The application

The middleware chain of `createApp`. Express runs the middlewares in the order of their
registration; `next()` continues with the next one, `next(err)` skips to the error handler, and a
middleware that sends a response ends the chain. The routers run when no middleware ended it.

## Main definitions

* `Exchange`, `Middleware`, `dispatch`: the state the middlewares share, and the chain
* `expressJson`, `corsMiddleware`, `securityHeaders`, `rateLimit`: the middlewares
* `createApp`: the handler that serves a request
-/

namespace LanguageGuru

open Process

/-- The counters of the rate limiter and the headers set on the response so far. -/
structure Exchange where
  requestsByIp : OrderedMap String ℕ
  headers : List (String × String)

/-- What a middleware does next: `next()`, `next(err)`, or the response that it sends. -/
inductive Verdict where
  | next
  | nextError
  | respond (r : Response)

abbrev Middleware := Request → Exchange → Exchange × Verdict

/-- Run the middlewares in order until one of them does not call `next()`. -/
def dispatch : List Middleware → Request → Exchange → Exchange × Verdict
  | [], _, x => (x, .next)
  | m :: ms, req, x =>
    match m req x with
    | (x, .next) => dispatch ms req x
    | (x, v) => (x, v)

/-- `res.setHeader`: a header that is set again is replaced. -/
def Exchange.setHeader (x : Exchange) (name value : String) : Exchange :=
  { x with headers := Keyed.upsert Prod.fst name (fun _ => (name, value)) (name, value) x.headers }

/-- `express.json`: a body it refuses is passed to the error handler. -/
def expressJson : Middleware := fun req x =>
  match req.payload with
  | .parsed _ => (x, .next)
  | .refused _ => (x, .nextError)

/-- The value of `Access-Control-Allow-Origin`, if the header is set. An empty `Origin` is
falsy. -/
def allowOrigin (cfg : Config) (origin : Option String) : Option String :=
  if "*" ∈ cfg.allowedOrigins then some (orElse origin "*")
  else
    match origin with
    | some o => if o ≠ "" ∧ o ∈ cfg.allowedOrigins then some o else none
    | none => none

def corsMiddleware (cfg : Config) : Middleware := fun req x =>
  let x :=
    match allowOrigin cfg req.origin with
    | some o => x.setHeader "Access-Control-Allow-Origin" o
    | none => x
  let x := x.setHeader "Vary" "Origin"
  let x := x.setHeader "Access-Control-Allow-Headers"
    "Origin, X-Requested-With, Content-Type, Accept, Authorization"
  let x := x.setHeader "Access-Control-Allow-Methods" "GET,POST,PUT,DELETE,OPTIONS"
  -- a preflight is answered here, in front of the limiter and the routes
  if req.method = .options then (x, .respond ⟨204, .empty⟩) else (x, .next)

def securityHeaders : Middleware := fun _ x =>
  let x := x.setHeader "X-Content-Type-Options" "nosniff"
  let x := x.setHeader "X-Frame-Options" "DENY"
  let x := x.setHeader "Referrer-Policy" "no-referrer"
  (x.setHeader "Cross-Origin-Resource-Policy" "same-site", .next)

/-- `key.split(':').pop()`. -/
def lastPart (key : String) : String :=
  String.ofList (key.toList.reverse.takeWhile fun c => c ≠ ':').reverse

/-- The counter key of an address in a minute. -/
def bucketKey (ip : String) (minuteBucket : ℕ) : String := ip ++ ":" ++ toString minuteBucket

/-- Whether the sweep deletes a key: its bucket is older than `oldBucket`. A part that is not a
number compares as `NaN`, which is not less than anything. -/
def isOld (oldBucket : ℤ) (key : String) : Bool :=
  match (lastPart key).toNat? with
  | some b => (b : ℤ) < oldBucket
  | none => false

/-- The sweep over the keys of the map. -/
def sweep (oldBucket : ℤ) (m : OrderedMap String ℕ) : OrderedMap String ℕ :=
  m.keys.foldl (fun m k => if isOld oldBucket k then m.delete k else m) m

def rateLimit (requestLimit : ℕ) : Middleware := fun req x =>
  let minuteBucket := req.seeds.receivedAt / 60000
  let key := bucketKey req.ip minuteBucket
  let current := (x.requestsByIp.get key).getD 0
  let counted := x.requestsByIp.set key (current + 1)
  -- a rejected request has been counted as well, and does not sweep
  if requestLimit < current + 1 then
    ({ x with requestsByIp := counted },
      .respond ⟨429, .error "Too many requests, try again later."⟩)
  else if 5000 < counted.size then
    ({ x with requestsByIp := sweep (minuteBucket - 2) counted }, .next)
  else ({ x with requestsByIp := counted }, .next)

/-- The request logger only observes the response. -/
def requestLogger : Middleware := fun _ x => (x, .next)

/-- The middlewares in the order of their registration. -/
def middlewares (cfg : Config) : List Middleware :=
  [expressJson, corsMiddleware cfg, securityHeaders, rateLimit cfg.requestLimit, requestLogger]

/-- The body that `express.json` leaves on the request. -/
def Request.body (req : Request) : Json :=
  match req.payload with
  | .parsed body => body
  | .refused _ => .obj []

/-- The application: the exchange after the middlewares, and the handler that answers. -/
def createApp (P : Platform) (cfg : Config) (mode : String) (req : Request) (x : Exchange) :
    Exchange × Handler :=
  match dispatch (middlewares cfg) req x with
  | (x, .next) => (x, routers P cfg mode req req.body)
  | (x, .nextError) => (x, errorHandler)
  | (x, .respond r) => (x, Program.send r)

end LanguageGuru
