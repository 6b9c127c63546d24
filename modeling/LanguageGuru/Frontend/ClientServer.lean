import LanguageGuru.Backend.ProgressViews
import LanguageGuru.Frontend.Thunks

/-!
# The client and the server together

The client in one session and the server on the memory store. A request that the client has sent
is handled atomically by the server at some moment, and its response is delivered at some later
moment; requests are handled and responses delivered in any order. The system numbers the requests
in the order in which the server handles them, and remembers for each of the two lists of the client
the number of the response that it shows.

## Main definitions

* `ApiCall.request`, `Response.decode`: a request as the server sees it, a response as the client
  does
* `ClientServer`, `ClientServer.step`: the client, the server, and the responses on their way

## Main results

* `handled_cases`: what the server answers to a request of the session that succeeds
-/

namespace LanguageGuru

open Process

/-! ## Requests and responses -/

/-- The body of a request. -/
def ApiCall.body : ApiCall → Json
  | .fetchLessons => .obj []
  | .fetchProgress => .obj []
  | .submitProgress lessonId score =>
    .obj [("lessonId", .str lessonId), ("completed", .bool true), ("score", .num score)]

/-- A request as the server sees it; a null token is sent as text. -/
def ApiCall.request (call : ApiCall) (token : Option String) (ip : String) (seeds : Seeds) :
    Request where
  method :=
    match call with
    | .submitProgress _ _ => .post
    | _ => .get
  path :=
    match call with
    | .fetchLessons => [some "api", some "lessons"]
    | _ => [some "api", some "progress"]
  ip := ip
  origin := none
  authorization := some ("Bearer " ++ token.getD "null")
  query := {}
  payload := .parsed call.body
  seeds := seeds

/-- The error that is shown when a response carries none. -/
def ApiCall.failure : ApiCall → String
  | .fetchLessons => "Failed to load lessons"
  | .fetchProgress => "Failed to load progress"
  | .submitProgress _ _ => "Failed to update progress"

/-- `response.ok`. -/
def Response.ok (r : Response) : Bool := 200 ≤ r.status && r.status < 300

/-- A response as a thunk reads it. -/
def Response.decode (r : Response) (failure : String) : Except String ResponseData :=
  if r.ok then
    .ok
      { lessons := match r.body with
          | .lessons ls => some ls
          | _ => none
        progress := match r.body with
          | .progress ps => some ps
          | _ => none }
  else
    match r.body with
    | .error message => .error (orElse (some message) failure)
    | _ => .error failure

/-- Whether the request writes. -/
def ApiCall.isWrite : ApiCall → Bool
  | .submitProgress _ _ => true
  | _ => false

/-! ## The system -/

/-- A request that the server has handled: the request, its number, and the response. -/
structure Answered where
  call : ApiCall
  number : ℕ
  response : Response

/-- The client and the server. `answers` holds the response to the request of each thunk once the
server has handled it, `handled` counts these requests, and `shownItems` and `shownProgress` are the
numbers of the responses whose lists the client shows. -/
structure ClientServer where
  client : Client
  server : MemoryState
  answers : ℕ → Option Answered
  handled : ℕ
  shownItems : Option ℕ
  shownProgress : Option ℕ

/-- The start of a session: no request was sent in it, and the client shows no list. -/
def ClientServer.beginSession (auth : AuthState) (storage : SessionStorage) (server : MemoryState) :
    ClientServer where
  client := { initialClient storage with state := ⟨auth, initialLessonsState⟩ }
  server := server
  answers := fun _ => none
  handled := 0
  shownItems := none
  shownProgress := none

/-- What can happen next in a session: the client sends a request, the server handles the request of
a thunk, or a thunk gets its response. -/
inductive SessionEvent where
  | fetchLessons
  | fetchProgress
  | submitProgress (lessonId : String) (score : ℚ)
  | handle (thunk : ℕ) (ip : String) (seeds : Seeds)
  | deliver (thunk : ℕ)

namespace ClientServer

variable (P : Platform) (cfg : Config) (sys : ClientServer)

/-- The server handles the request of a thunk. -/
def handle (i : ℕ) (ip : String) (seeds : Seeds) : ClientServer :=
  match sys.client.thunks[i]?, sys.answers i with
  | some (.awaitingApi call token), none =>
    let req := call.request token ip seeds
    match (sys.server.respond P cfg req).head? with
    | some response =>
      { sys with
        server := sys.server.next P cfg req
        answers := Function.update sys.answers i (some ⟨call, sys.handled, response⟩)
        handled := sys.handled + 1 }
    | none => sys
  | _, _ => sys

/-- A thunk gets its response. -/
def deliver (i : ℕ) : ClientServer :=
  match sys.client.thunks[i]?, sys.answers i with
  | some (.awaitingApi call _), some a =>
    { sys with
      client := sys.client.apiAnswered i (a.response.decode call.failure)
      shownItems := if call = .fetchLessons then some a.number else sys.shownItems
      shownProgress := if call = .fetchLessons then sys.shownProgress else some a.number }
  | _, _ => sys

def step : SessionEvent → ClientServer
  | .fetchLessons => { sys with client := sys.client.fetchLessons }
  | .fetchProgress => { sys with client := sys.client.fetchProgress }
  | .submitProgress lessonId score =>
    { sys with client := sys.client.submitProgress lessonId score }
  | .handle i ip seeds => sys.handle P cfg i ip seeds
  | .deliver i => sys.deliver i

end ClientServer

/-! ## What the server answers -/

section Server

variable (s : MemoryState)

/-- The progress list of a user, as `GET /progress` shows it. -/
def MemoryState.progressList (userId : String) : List ProgressResponse :=
  formatProgress (s.progressOf userId)

/-- The lessons with the progress of a user, as `GET /lessons` shows them. -/
def MemoryState.lessonList (userId : String) : List LessonResponse :=
  s.lessons.map fun l => toLessonResponse l (progressMap (s.progressOf userId))

variable {P : Platform} {cfg : Config} {s} {userId token : String}

/-- The handler behind the authentication middleware that a request reaches. -/
def ApiCall.handler (P : Platform) (call : ApiCall) (req : Request) : User → Handler :=
  match call with
  | .fetchLessons => lessons req
  | .fetchProgress => progress
  | .submitProgress _ _ => postProgress P req call.body

theorem serve_request (call : ApiCall) (token : Option String) (ip : String) (seeds : Seeds) :
    let req := call.request token ip seeds
    serve P cfg req = authMiddleware P cfg req (call.handler P req) := by
  cases call <;> rfl

/-- A request of the session that succeeds is answered with the list of the user in the state that
it leaves, and only a submission changes the state. -/
theorem handled_cases
    (htoken : ∀ now payload, P.jwtVerify token cfg.jwtSecret now = some payload →
      payload.sub = userId)
    {call : ApiCall} {ip : String} {seeds : Seeds} {response : Response}
    (hr : (s.respond P cfg (call.request (some token) ip seeds)).head? = some response)
    (hok : response.ok = true) :
    let s' := s.next P cfg (call.request (some token) ip seeds)
    (call = .fetchLessons ∧ response = ⟨200, .lessons (s'.lessonList userId)⟩ ∧ s' = s) ∨
      (call ≠ .fetchLessons ∧ response.body = .progress (s'.progressList userId) ∧
        (call.isWrite = false → s' = s)) := by
  intro s'
  set req := call.request (some token) ip seeds with hreq
  have hs' : s' = s.next P cfg req := rfl
  simp only [MemoryState.respond, MemoryState.next, hreq, serve_request, exec_authMiddleware]
    at hr hs'
  rw [← hreq] at hr hs'
  cases hi : s.identify P cfg req with
  | error message =>
    -- a 401 is no success
    simp only [hi, List.head?_cons, Option.some.injEq] at hr
    rw [← hr] at hok
    cases hok
  | ok user =>
    -- the header carries the token of the session, whose subject is its user
    obtain ⟨token', payload, hheader, hv, hu⟩ := of_identify_eq_ok hi
    have htoken' : token' = token := by
      have h : some ("Bearer " ++ token) = some ("Bearer " ++ token') := hheader
      exact ((String.append_right_inj _).mp (Option.some.inj h)).symm
    rw [htoken'] at hv
    have hid : user.id = userId := (Keyed.key_of_lookup hu).trans (htoken _ _ hv)
    simp only [hi] at hr hs'
    cases call with
    | fetchLessons =>
      simp only [ApiCall.handler, exec_lessons] at hr hs'
      -- the client asks without filters
      have hall : s.lessons.filter req.query.admits = s.lessons :=
        List.filter_eq_self.mpr fun _ _ => rfl
      rw [hall, hid] at hr
      refine .inl ⟨rfl, ?_, hs'⟩
      rw [hs']
      exact (Option.some.inj hr).symm
    | fetchProgress =>
      simp only [ApiCall.handler, exec_progress] at hr hs'
      rw [hid] at hr
      refine .inr ⟨by simp, ?_, fun _ => hs'⟩
      rw [hs', ← Option.some.inj hr]
      rfl
    | submitProgress lessonId score =>
      simp only [ApiCall.handler, exec_postProgress] at hr hs'
      refine .inr ⟨by simp, ?_, by simp [ApiCall.isWrite]⟩
      cases hv : progressSchema P (ApiCall.submitProgress lessonId score).body.orEmpty with
      | error message =>
        simp only [hv, List.head?_cons, Option.some.injEq] at hr
        rw [← hr] at hok
        cases hok
      | ok value =>
        -- the record is written before the list is read for the answer
        cases hl : s.lessonById value.lessonId with
        | none =>
          simp only [hv, hl, List.head?_cons, Option.some.injEq] at hr
          rw [← hr] at hok
          cases hok
        | some lesson =>
          simp only [hv, hl, hid, List.head?_cons, Option.some.injEq] at hr hs'
          rw [← hr, hs']
          rfl

end Server

end LanguageGuru
