import LanguageGuru.Backend.AccountStore
import LanguageGuru.Backend.Middlewares
import LanguageGuru.Frontend.ClientServer
import LanguageGuru.Frontend.StarResponse
import LanguageGuru.Frontend.UserText

/-!
# Registration over the base URLs

A request is sent to one base URL after the other until a response is received. A connection error
does not tell whether the request was lost or only its response, so a registration that was
processed may be sent again, and is then refused because its email is taken. A registration tells
the truth exactly when no attempt before the answered one has created the account.

## Main definitions

* `apiFetch`, `authData`, `registerActions`: the loop over the base URLs, what is read from the
  response, and the actions that `registerUser` dispatches
* `Attempt`, `Attempt.send`: an attempt, and what becomes of it on the server, while others use it
* `RegisterCall`: a call of `registerUser` with the fates of its attempts
* `RegisterCall.Truthful`: `AUTH_SUCCESS` is dispatched exactly when the call created the account
* `registrable`, `lostAfterProcessing`: the payload can be registered, and an attempt before the
  answered one is processed and its response lost

## Main results

* `Client.state_registers`: the client's thunk dispatches these actions
* `handled_attempt`: what the server makes of an attempt
* `register_truthful_iff`: the condition is exact
* `account_created_but_refused`: two attempts of one registration
-/

namespace LanguageGuru

open Process

/-! ## The client -/

/-- An error of `fetch`. -/
structure FetchError where
  name : String
  message : String
  deriving DecidableEq, Repr

/-- The error of a request that was lost, or whose response was lost. -/
def networkError : FetchError := ⟨"TypeError", "Network request failed"⟩

/-- The name, or the message in any case of its letters. -/
def isConnectionError (error : FetchError) : Bool :=
  error.name = "TypeError" ||
    includes (String.ofList (error.message.toList.map Char.toLower)) "network request failed"

/-- `apiFetch`: the base URLs in their order, with the last connection error. -/
def apiFetch {σ : Type} (fetch : String → σ → Except FetchError Response × σ) (endpoint : String) :
    List String → Option FetchError → σ → Except FetchError Response × σ
  | [], lastError, s => (.error (lastError.getD ⟨"Error", "Unable to reach backend"⟩), s)
  | baseUrl :: baseUrls, _, s =>
    match fetch (baseUrl ++ endpoint) s with
    | (.ok response, s) => (.ok response, s)
    | (.error error, s) =>
      if isConnectionError error then apiFetch fetch endpoint baseUrls (some error) s
      else (.error error, s)

/-- The session of a response, or the error that `authRequest` throws. -/
def authData (response : Response) : Except String (String × SanitizedUser) :=
  if response.ok then
    match response.body with
    | .session token user => .ok (token, user)
    -- a success of the routes that are requested carries a session
    | _ => .error "Authentication failed"
  else
    match response.body with
    | .error message => .error (orElse (some message) "Authentication failed")
    | _ => .error "Authentication failed"

/-- `authRequest`: an error of `apiFetch` is thrown on. -/
def authRequest : Except FetchError Response → Except String (String × SanitizedUser)
  | .ok response => authData response
  | .error error => .error error.message

/-- The actions that `registerUser` dispatches when the session can be stored. -/
def registerActions : Except String (String × SanitizedUser) → List ReduxAction
  | .ok (token, user) => [.authRequest, .authSuccess token user]
  | .error message => [.authRequest, .authFailure message]

def ReduxAction.isAuthSuccess : ReduxAction → Bool
  | .authSuccess _ _ => true
  | _ => false

theorem any_registerActions (answer : Except String (String × SanitizedUser)) :
    (registerActions answer).any ReduxAction.isAuthSuccess = answer.isOk := by
  cases answer <;> rfl

/-- **The thunk of the client dispatches these actions** when its request is answered, its session
is stored and it goes on. -/
theorem Client.state_registers (J : UserJson) (c : Client)
    (answer : Except String (String × SanitizedUser)) :
    (run (Client.step J) c
      [.registerUser, .authAnswered c.thunks.length answer, .storageCompletes c.operations.length,
        .storageCompletes (c.operations.length + 1), .storageAwaited c.thunks.length]).state =
      (registerActions answer).foldl rootReducer c.state := by
  cases answer with
  | error message =>
    simp [Client.step, Client.registerUser, Client.authRequest, Client.spawn, Client.dispatch,
      Client.authAnswered, Client.wait, Client.storageCompletes, Client.storageAwaited,
      registerActions]
  | ok session =>
    simp [Client.step, Client.registerUser, Client.authRequest, Client.spawn, Client.dispatch,
      Client.authAnswered, Client.wait, Client.startStorage, Client.storageCompletes,
      Client.storageAwaited, Client.promiseAll, Client.promise, Client.sessionPersisted,
      registerActions, StorageOperation.perform]

/-! ## The attempts -/

/-- What becomes of an attempt: it is lost, it is processed and its response is lost, or it is
answered. -/
inductive Fate where
  | lost
  | unanswered
  | answered
  deriving DecidableEq, Repr

/-- An attempt: its fate, what the server sees of it, the counters of the limiter when it arrives,
and the store calls of other requests up to its arrival and between its own calls. -/
structure Attempt where
  fate : Fate
  ip : String
  origin : Option String
  seeds : Seeds
  requestsByIp : OrderedMap String ℕ
  before : List StoreCall
  during : ℕ → List StoreCall

/-- The store, what the handlers of the attempts did, and the attempts to come. -/
structure Backend (S : Type) where
  store : S
  trace : List (Event StoreCall Response)
  pending : List Attempt

/-- An attempt has created an account. -/
def Backend.created {S : Type} (b : Backend S) : Bool :=
  (Event.calls b.trace).any StoreCall.isCreate

namespace Attempt

variable {P : Platform} {S : Type} (accounts : AccountStore P S) (cfg : Config) (payload : Json)
  (a : Attempt)

/-- The POST of the payload to the registration. -/
def request : Request where
  method := .post
  path := [some "api", some "auth", some "register"]
  ip := a.ip
  origin := a.origin
  authorization := none
  query := {}
  payload := .parsed payload
  seeds := a.seeds

/-- What the server does with an attempt that reaches it, and the state that it leaves. -/
def handled (s : S) : List (Event StoreCall Response) × S :=
  (createApp P cfg accounts.mode (a.request payload) ⟨a.requestsByIp, []⟩).2.among accounts.store
    a.during s

/-- `fetch` with an attempt: what the client gets, and what happens on the server. -/
def send (b : Backend S) : Except FetchError Response × Backend S :=
  let s := accounts.store.replay b.store a.before
  let done := a.handled accounts cfg payload s
  match a.fate with
  | .lost => (.error networkError, { b with store := s })
  | .unanswered =>
    (.error networkError, { b with store := done.2, trace := b.trace ++ done.1 })
  | .answered =>
    (match (Event.outputs done.1).head? with
      | some response => .ok response
      | none => .error networkError,
      { b with store := done.2, trace := b.trace ++ done.1 })

/-- The limiter lets the attempt through. -/
def passes : Bool := counter a.requestsByIp (a.request payload).arrival < cfg.requestLimit

/-- The attempt reaches the handler of its route. -/
def processed : Bool := a.fate ≠ .lost && a.passes cfg payload

end Attempt

/-- All base URLs reach the same backend; an attempt that there is no more of is lost. -/
def Backend.fetch {P : Platform} {S : Type} (accounts : AccountStore P S) (cfg : Config)
    (payload : Json) (_url : String) (b : Backend S) : Except FetchError Response × Backend S :=
  match b.pending with
  | [] => (.error networkError, b)
  | a :: rest => a.send accounts cfg payload { b with pending := rest }

/-- An attempt before the answered one is processed, and its response is lost. -/
def lostAfterProcessing (cfg : Config) (payload : Json) : List Attempt → Bool
  | [] => false
  | a :: rest =>
    match a.fate with
    | .lost => lostAfterProcessing cfg payload rest
    | .unanswered => a.passes cfg payload || lostAfterProcessing cfg payload rest
    | .answered => false

/-- The schema accepts the payload, and its email is free. -/
def registrable {P : Platform} {S : Type} (accounts : AccountStore P S) (payload : Json) (s : S) :
    Bool :=
  match registerSchema P payload.orEmpty with
  | .ok value => P.toLowerCase value.email ∉ accounts.emails s
  | .error _ => false

/-- A call of `registerUser`: the base URLs with an attempt for each, the payload, and the state of
the store at its start. -/
structure RegisterCall (S : Type) where
  baseUrls : List String
  attempts : List Attempt
  aligned : attempts.length = baseUrls.length
  payload : Json
  start : S

namespace RegisterCall

variable {P : Platform} {S : Type} (accounts : AccountStore P S) (cfg : Config)
  (call : RegisterCall S)

/-- What `apiFetch` returns or throws, and what has happened on the server. -/
def fetched : Except FetchError Response × Backend S :=
  apiFetch (Backend.fetch accounts cfg call.payload) "/auth/register" call.baseUrls none
    ⟨call.start, [], call.attempts⟩

/-- The actions that the call dispatches. -/
def dispatched : List ReduxAction :=
  registerActions (authRequest (call.fetched accounts cfg).1)

/-- `AUTH_SUCCESS` is dispatched exactly when the call has created the account. -/
def Truthful : Prop :=
  (call.dispatched accounts cfg).any ReduxAction.isAuthSuccess = true ↔
    (call.fetched accounts cfg).2.created = true

instance : Decidable (call.Truthful accounts cfg) := inferInstanceAs (Decidable (_ ↔ _))

end RegisterCall

/-- No other request registers the email of the payload. -/
def Attempt.NobodyElse (P : Platform) (payload : Json) (a : Attempt) : Prop :=
  ∀ value, registerSchema P payload.orEmpty = .ok value →
    (∀ c ∈ a.before, c.registersEmail P (P.toLowerCase value.email) = false) ∧
      ∀ n, ∀ c ∈ a.during n, c.registersEmail P (P.toLowerCase value.email) = false

/-! ## What the server makes of an attempt -/

section Server

variable {P : Platform} {S : Type} {accounts : AccountStore P S} {cfg : Config}
  {value : RegisterValue} {payload : Json} {s : S}

theorem registrable_eq (hv : registerSchema P payload.orEmpty = .ok value) :
    registrable accounts payload s = decide (P.toLowerCase value.email ∉ accounts.emails s) := by
  unfold registrable
  rw [hv]

theorem registrable_of_error {message : String}
    (hv : registerSchema P payload.orEmpty = .error message) :
    registrable accounts payload s = false := by
  unfold registrable
  rw [hv]

/-- Other requests do not change whether the payload can be registered. -/
theorem registrable_replay {cs : List StoreCall}
    (hcs : ∀ value, registerSchema P payload.orEmpty = .ok value →
      ∀ c ∈ cs, c.registersEmail P (P.toLowerCase value.email) = false) :
    registrable accounts payload (accounts.store.replay s cs) =
      registrable accounts payload s := by
  cases hv : registerSchema P payload.orEmpty with
  | error message => rw [registrable_of_error hv, registrable_of_error hv]
  | ok value =>
    rw [registrable_eq hv, registrable_eq hv]
    exact decide_eq_decide.mpr (not_congr (accounts.mem_emails_replay (hcs value hv)))

/-- What the server makes of an attempt: one that registers the account leaves its email taken and
is answered with its session, and every other one is answered with an error. -/
structure Handles (accounts : AccountStore P S) (payload : Json) (registers : Bool) (s : S)
    (done : List (Event StoreCall Response) × S) : Prop where
  registrable :
    registrable accounts payload done.2 = (registrable accounts payload s && !registers)
  created : (Event.calls done.1).any StoreCall.isCreate = registers
  response : ∃ response, Event.outputs done.1 = [response] ∧ (authData response).isOk = registers

/-- An attempt that is answered with an error before it uses the store. -/
theorem handles_error {status : ℕ} {message : String} (hstatus : 300 ≤ status) :
    Handles accounts payload false s ([.sent ⟨status, .error message⟩], s) where
  registrable := by rw [Bool.not_false, Bool.and_true]
  created := rfl
  response := by
    refine ⟨_, rfl, ?_⟩
    have hnot : (⟨status, .error message⟩ : Response).ok = false := by
      simp only [Response.ok, Bool.and_eq_false_iff, decide_eq_false_iff_not]
      omega
    rw [authData, hnot]
    rfl

/-- A registration on the server, while nobody else registers its email. -/
theorem handles_register (req : Request) (hv : registerSchema P payload.orEmpty = .ok value)
    {others : ℕ → List StoreCall}
    (hothers : ∀ n, ∀ c ∈ others n, c.registersEmail P (P.toLowerCase value.email) = false) :
    Handles accounts payload (registrable accounts payload s) s
      ((register P cfg req payload).among accounts.store others s) := by
  by_cases htaken : P.toLowerCase value.email ∈ accounts.emails s
  · have hnot : registrable accounts payload s = false := by
      rw [registrable_eq hv]
      exact decide_eq_false (not_not_intro htaken)
    rw [hnot, accounts.among_register_taken hv htaken]
    refine ⟨?_, rfl, _, rfl, rfl⟩
    show registrable accounts payload (accounts.store.replay s (others 0)) = _
    rw [registrable_eq hv, hnot]
    exact decide_eq_false (not_not_intro ((accounts.mem_emails_replay (hothers 0)).mpr htaken))
  · have hfree : registrable accounts payload s = true := by
      rw [registrable_eq hv]
      exact decide_eq_true htaken
    obtain ⟨u, s', hamong, hemail⟩ := accounts.among_register_free cfg req hv hothers htaken
    rw [hfree, hamong]
    refine ⟨?_, rfl, _, rfl, rfl⟩
    rw [registrable_eq hv, hfree]
    exact decide_eq_false (not_not_intro hemail)

variable (accounts) in
/-- **What the server makes of an attempt.** It registers the account if the limiter lets it through
and the payload can be registered. -/
theorem handled_attempt (cfg : Config) {a : Attempt} (h : a.NobodyElse P payload) (s : S) :
    Handles accounts payload (a.passes cfg payload && registrable accounts payload s) s
      (a.handled accounts cfg payload s) := by
  have hmethod : (a.request payload).method ≠ .options := by
    intro hoptions
    cases hoptions
  unfold Attempt.handled
  rw [createApp_parsed P cfg accounts.mode hmethod rfl]
  unfold Attempt.passes
  by_cases hpass : counter a.requestsByIp (a.request payload).arrival < cfg.requestLimit
  · rw [decide_eq_true hpass, Bool.true_and]
    show Handles accounts payload _ s (Program.among accounts.store (if _ then _ else _) a.during s)
    rw [if_pos hpass]
    show Handles accounts payload _ s
      ((register P cfg (a.request payload) payload).among accounts.store a.during s)
    cases hv : registerSchema P payload.orEmpty with
    | error message =>
      rw [registrable_of_error hv, register, hv]
      exact handles_error (by omega)
    | ok value => exact handles_register (a.request payload) hv (h value hv).2
  · -- the limiter answers
    rw [decide_eq_false hpass, Bool.false_and]
    show Handles accounts payload _ s (Program.among accounts.store (if _ then _ else _) a.during s)
    rw [if_neg hpass]
    exact handles_error (by omega)

end Server

/-! ## The loop -/

section Loop

variable {P : Platform} {S : Type} {accounts : AccountStore P S} {cfg : Config} {payload : Json}
  {a : Attempt} {b : Backend S}

/-- What becomes of an attempt: it registers the account or leaves things as they are, and it is
answered accordingly, or it fails with a connection error. -/
structure Attempt.Sends (accounts : AccountStore P S) (payload : Json) (a : Attempt)
    (registers : Bool) (b : Backend S) (r : Except FetchError Response × Backend S) : Prop where
  pending : r.2.pending = b.pending
  registrable :
    registrable accounts payload r.2.store = (registrable accounts payload b.store && !registers)
  created : r.2.created = (b.created || registers)
  answered : a.fate = .answered → ∃ response, r.1 = .ok response ∧
    (authData response).isOk = registers
  failed : a.fate ≠ .answered → r.1 = .error networkError

theorem created_append (b : Backend S) (store : S)
    (events : List (Event StoreCall Response)) :
    Backend.created { b with store, trace := b.trace ++ events } =
      (b.created || (Event.calls events).any StoreCall.isCreate) := by
  unfold Backend.created
  rw [Event.calls_append, List.any_append]

variable (accounts) in
/-- **What becomes of an attempt.** -/
theorem send_attempt (cfg : Config) (h : a.NobodyElse P payload) (b : Backend S) :
    a.Sends accounts payload (a.processed cfg payload && registrable accounts payload b.store) b
      (a.send accounts cfg payload b) := by
  have hbefore : registrable accounts payload (accounts.store.replay b.store a.before) =
      registrable accounts payload b.store := registrable_replay fun value hv => (h value hv).1
  have hdone := handled_attempt accounts cfg h (accounts.store.replay b.store a.before)
  rw [hbefore] at hdone
  obtain ⟨response, houtputs, hok⟩ := hdone.response
  unfold Attempt.processed Attempt.send
  cases hfate : a.fate with
  | lost =>
    refine ⟨rfl, ?_, ?_, fun hanswered => ?_, fun _ => rfl⟩
    · show registrable accounts payload (accounts.store.replay b.store a.before) = _
      rw [hbefore]
      exact (Bool.and_true _).symm
    · exact (Bool.or_false _).symm
    · cases hfate.symm.trans hanswered
  | unanswered =>
    refine ⟨rfl, ?_, ?_, fun hanswered => ?_, fun _ => rfl⟩
    · show registrable accounts payload (a.handled accounts cfg payload _).2 = _
      rw [hdone.registrable, hbefore]
      rfl
    · show Backend.created { b with store := _, trace := b.trace ++ _ } = _
      rw [created_append, hdone.created]
      rfl
    · cases hfate.symm.trans hanswered
  | answered =>
    refine ⟨rfl, ?_, ?_, fun _ => ⟨response, ?_, hok⟩, fun hne => absurd hfate hne⟩
    · show registrable accounts payload (a.handled accounts cfg payload _).2 = _
      rw [hdone.registrable, hbefore]
      rfl
    · show Backend.created { b with store := _, trace := b.trace ++ _ } = _
      rw [created_append, hdone.created]
      rfl
    · simp only [houtputs, List.head?_cons]

theorem lostAfterProcessing_cons (hfate : a.fate ≠ .answered) (rest : List Attempt) :
    lostAfterProcessing cfg payload (a :: rest) =
      (a.processed cfg payload || lostAfterProcessing cfg payload rest) := by
  unfold Attempt.processed
  rw [lostAfterProcessing]
  cases h : a.fate with
  | lost => rfl
  | unanswered => rfl
  | answered => exact absurd h hfate

/-- What the loop over the base URLs ends with. -/
structure LoopEnds (accounts : AccountStore P S) (cfg : Config) (payload : Json) (b : Backend S)
    (r : Except FetchError Response × Backend S) : Prop where
  taken : registrable accounts payload b.store = false →
    (authRequest r.1).isOk = false ∧ r.2.created = b.created
  lost : registrable accounts payload b.store = true →
    lostAfterProcessing cfg payload b.pending = true →
      (authRequest r.1).isOk = false ∧ r.2.created = true
  kept : registrable accounts payload b.store = true →
    lostAfterProcessing cfg payload b.pending = false →
      r.2.created = (b.created || (authRequest r.1).isOk)

/-- The loop ends with a response. -/
theorem loopEnds_answered {registers : Bool} {rest : List Attempt}
    {r : Except FetchError Response × Backend S}
    (hregisters : registers = (a.processed cfg payload && registrable accounts payload b.store))
    (hpending : b.pending = a :: rest) (hfate : a.fate = .answered) {response : Response}
    (hr : r.1 = .ok response) (hok : (authData response).isOk = registers)
    (hcreated : r.2.created = (b.created || registers)) : LoopEnds accounts cfg payload b r := by
  have hsucceeds : (authRequest r.1).isOk = registers := by
    rw [hr]
    exact hok
  have hnotLost : lostAfterProcessing cfg payload b.pending = false := by
    rw [hpending, lostAfterProcessing, hfate]
  constructor
  · intro htaken
    rw [htaken, Bool.and_false] at hregisters
    rw [hsucceeds, hcreated, hregisters, Bool.or_false]
    exact ⟨rfl, rfl⟩
  · intro _ hlost
    cases hnotLost.symm.trans hlost
  · intro _ _
    rw [hsucceeds, hcreated]

/-- The loop goes on after a connection error. -/
theorem loopEnds_failed {b' : Backend S} {rest : List Attempt}
    {r : Except FetchError Response × Backend S} (hpending : b.pending = a :: rest)
    (hfate : a.fate ≠ .answered) (hpending' : b'.pending = rest)
    (hregistrable : registrable accounts payload b'.store = (registrable accounts payload b.store &&
      !(a.processed cfg payload && registrable accounts payload b.store)))
    (hcreated : b'.created =
      (b.created || (a.processed cfg payload && registrable accounts payload b.store)))
    (h : LoopEnds accounts cfg payload b' r) : LoopEnds accounts cfg payload b r := by
  have hlost : lostAfterProcessing cfg payload b.pending =
      (a.processed cfg payload || lostAfterProcessing cfg payload b'.pending) := by
    rw [hpending, hpending', lostAfterProcessing_cons hfate]
  constructor
  · intro htaken
    rw [htaken, Bool.and_false, Bool.or_false] at hcreated
    rw [htaken, Bool.false_and] at hregistrable
    rw [← hcreated]
    exact h.taken hregistrable
  · intro hfree hloses
    rw [hfree, Bool.and_true] at hregistrable hcreated
    rw [Bool.true_and] at hregistrable
    cases hprocessed : a.processed cfg payload with
    | true =>
      -- this attempt has created the account, and the next ones are refused
      rw [hprocessed] at hregistrable hcreated
      rw [← hcreated.trans (Bool.or_true _)]
      exact h.taken hregistrable
    | false =>
      rw [hprocessed] at hregistrable
      rw [hlost, hprocessed, Bool.false_or] at hloses
      exact h.lost hregistrable hloses
  · intro hfree hkeeps
    rw [hlost, Bool.or_eq_false_iff] at hkeeps
    obtain ⟨hprocessed, hkeeps⟩ := hkeeps
    rw [hprocessed, Bool.false_and, Bool.or_false] at hcreated
    rw [hprocessed, hfree] at hregistrable
    rw [← hcreated]
    exact h.kept hregistrable hkeeps

/-- **The loop over the base URLs.** -/
theorem loopEnds_apiFetch (endpoint : String) (baseUrls : List String)
    (lastError : Option FetchError) (b : Backend S)
    (haligned : b.pending.length = baseUrls.length)
    (hothers : ∀ a ∈ b.pending, a.NobodyElse P payload) :
    LoopEnds accounts cfg payload b
      (apiFetch (Backend.fetch accounts cfg payload) endpoint baseUrls lastError b) := by
  induction baseUrls generalizing lastError b with
  | nil =>
    have hnone : b.pending = [] := List.length_eq_zero_iff.mp haligned
    constructor
    · intro _
      exact ⟨rfl, rfl⟩
    · intro _ hlost
      rw [hnone] at hlost
      cases hlost
    · intro _ _
      exact (Bool.or_false _).symm
  | cons baseUrl baseUrls ih =>
    cases hpending : b.pending with
    | nil =>
      rw [hpending] at haligned
      cases haligned
    | cons a rest =>
      have hlength : rest.length = baseUrls.length := by
        rw [hpending] at haligned
        exact Nat.succ.inj haligned
      have hrest : ∀ a ∈ rest, a.NobodyElse P payload := by
        intro a' ha'
        apply hothers a'
        rw [hpending]
        exact List.mem_cons_of_mem a ha'
      have hfirst : a.NobodyElse P payload := by
        apply hothers a
        rw [hpending]
        exact List.mem_cons_self
      have hsends := send_attempt accounts cfg hfirst { b with pending := rest }
      have hfetch : Backend.fetch accounts cfg payload (baseUrl ++ endpoint) b =
          a.send accounts cfg payload { b with pending := rest } := by
        unfold Backend.fetch
        rw [hpending]
      rw [apiFetch, hfetch]
      rcases hsend : a.send accounts cfg payload { b with pending := rest } with ⟨result, b'⟩
      rw [hsend] at hsends
      by_cases hfate : a.fate = .answered
      · obtain ⟨response, hresponse, hok⟩ := hsends.answered hfate
        have hresult : result = .ok response := hresponse
        subst hresult
        exact loopEnds_answered rfl hpending hfate rfl hok hsends.created
      · have hresult : result = .error networkError := hsends.failed hfate
        subst hresult
        have hgoes : isConnectionError networkError = true := rfl
        simp only [hgoes, if_true]
        have hpending' : b'.pending = rest := hsends.pending
        apply loopEnds_failed hpending hfate hpending' hsends.registrable hsends.created
        apply ih
        · rw [hpending', hlength]
        · rw [hpending']
          exact hrest

end Loop

/-- **A registration tells the truth exactly when no attempt before the answered one has created the
account**: unless the payload can be registered and an attempt before the answered one is processed
and its response lost. Other requests use the server all the while, and do not register the
email. -/
theorem register_truthful_iff {P : Platform} {S : Type} (accounts : AccountStore P S)
    (cfg : Config) (call : RegisterCall S)
    (hothers : ∀ a ∈ call.attempts, a.NobodyElse P call.payload) :
    call.Truthful accounts cfg ↔ ¬ (registrable accounts call.payload call.start = true ∧
      lostAfterProcessing cfg call.payload call.attempts = true) := by
  have hends : LoopEnds accounts cfg call.payload ⟨call.start, [], call.attempts⟩
      (call.fetched accounts cfg) :=
    loopEnds_apiFetch "/auth/register" call.baseUrls none _ call.aligned hothers
  unfold RegisterCall.Truthful RegisterCall.dispatched
  rw [any_registerActions]
  cases hregistrable : registrable accounts call.payload call.start with
  | false =>
    obtain ⟨hfails, hcreated⟩ := hends.taken hregistrable
    rw [hfails, hcreated]
    simp [Backend.created]
  | true =>
    cases hlost : lostAfterProcessing cfg call.payload call.attempts with
    | true =>
      obtain ⟨hfails, hcreated⟩ := hends.lost hregistrable hlost
      rw [hfails, hcreated]
      simp
    | false =>
      have hcreated := hends.kept hregistrable hlost
      rw [hcreated]
      simp [Backend.created]

/-- The memory store of the plain platform. -/
def plainAccounts : AccountStore plainPlatform MemoryState :=
  memoryAccounts plainPlatform plain_toLowerCase_idem

/-- A registration from an Android device, which tries two base URLs. -/
def adaTriesTwice (first second : Fate) : RegisterCall MemoryState where
  baseUrls := ["http://localhost:3000/api", "http://10.0.2.2:3000/api"]
  attempts := [first, second].map fun fate =>
    { fate, ip := "127.0.0.1", origin := none, seeds := ⟨0, 0, 0, 0, "u_ada", "salt", 0⟩,
      requestsByIp := .empty, before := [], during := fun _ => [] }
  aligned := rfl
  payload := .obj [("username", .str "ada"), ("email", .str "ada@example.com"),
    ("password", .str "secret1"), ("role", .str "Engineer")]
  start := createMemoryStore plainPlatform [] "salt" 0

theorem nobodyElse_adaTriesTwice (first second : Fate) :
    ∀ a ∈ (adaTriesTwice first second).attempts,
      a.NobodyElse plainPlatform (adaTriesTwice first second).payload := by
  intro a ha value _
  obtain ⟨fate, -, rfl⟩ := List.mem_map.mp ha
  exact ⟨fun c hc => absurd hc List.not_mem_nil, fun n c hc => absurd hc List.not_mem_nil⟩

/-- The first attempt is lost, and the second one registers the account. -/
theorem lost_attempt_is_harmless :
    (adaTriesTwice .lost .answered).Truthful plainAccounts plainConfig := by
  apply (register_truthful_iff plainAccounts plainConfig _ (nobodyElse_adaTriesTwice _ _)).mpr
  decide +kernel

/-- **The account is created and the registration is refused**: the response to the first attempt is
lost, and the second one finds the email taken. -/
theorem account_created_but_refused :
    (∀ a ∈ (adaTriesTwice .unanswered .answered).attempts,
      a.NobodyElse plainPlatform (adaTriesTwice .unanswered .answered).payload) ∧
    ¬ (adaTriesTwice .unanswered .answered).Truthful plainAccounts plainConfig := by
  refine ⟨nobodyElse_adaTriesTwice _ _, ?_⟩
  decide +kernel

end LanguageGuru
