import LanguageGuru.Frontend.Redux
import LanguageGuru.Process.Transition

/-!
# The thunks of the client

The asynchronous action creators of the client. A thunk runs without interruption up to its next
`await`; there it waits for storage operations or for a response, and the continuation runs when
the event loop gets to it. Storage operations and responses complete in any order, and each may
fail. The client also remembers, for each of the two lists it shows, the token of the request that
returned it.

## Main definitions

* `Thunk`, `StorageOperation`, `Client`: where thunks wait, what is pending, and the whole client
* `bootstrapSession`, `loginUser`, `registerUser`, `logoutUser`, `fetchLessons`, `fetchProgress`,
  `submitProgress`: the thunks up to their first `await`
* `Client.storageAwaited`, `Client.authAnswered`, `Client.apiAnswered`: their continuations
* `ClientEvent`, `Client.step`: what can happen next, and what it does
-/

namespace LanguageGuru

/-- The storage keys `lg_token` and `lg_user`. -/
inductive StorageKey where
  | token
  | user
  deriving DecidableEq, Repr

/-- The storage of the device: the token, and the user as JSON text. -/
structure SessionStorage where
  token : Option String
  user : Option String
  deriving DecidableEq, Repr

def SessionStorage.get (s : SessionStorage) : StorageKey → Option String
  | .token => s.token
  | .user => s.user

def SessionStorage.put (s : SessionStorage) (key : StorageKey) (value : Option String) :
    SessionStorage :=
  match key with
  | .token => { s with token := value }
  | .user => { s with user := value }

/-- An operation of `AsyncStorage`. -/
inductive StorageOperation where
  | getItem (key : StorageKey)
  | setItem (key : StorageKey) (value : String)
  | removeItem (key : StorageKey)
  deriving DecidableEq, Repr

/-- The promise of a storage operation. -/
inductive StoragePromise where
  | pending
  | fulfilled (value : Option String)
  | rejected (message : String)
  deriving DecidableEq, Repr

/-- The storage after an operation, and the value that its promise is fulfilled with. -/
def StorageOperation.perform (s : SessionStorage) :
    StorageOperation → SessionStorage × Option String
  | .getItem key => (s, s.get key)
  | .setItem key value => (s.put key (some value), none)
  | .removeItem key => (s.put key none, none)

/-- The requests that carry the token of the session. -/
inductive ApiCall where
  | fetchLessons
  | fetchProgress
  | submitProgress (lessonId : String) (score : ℚ)
  deriving DecidableEq, Repr

/-- Where a thunk waits: for two storage operations, named by their positions, or for a
response. -/
inductive Thunk where
  | readingSession (token user : ℕ)
  | awaitingAuth (endpoint : String)
  | persistingSession (token : String) (user : SanitizedUser) (tokenSaved userSaved : ℕ)
  | removingSession (tokenRemoved userRemoved : ℕ)
  | awaitingApi (call : ApiCall) (token : Option String)
  | settled
  deriving DecidableEq, Repr

/-- The thunk waits for a response to a request with a token. -/
def Thunk.awaitsApi : Thunk → Bool
  | .awaitingApi _ _ => true
  | _ => false

/-- What a response to a request with a token holds; an absent list is undefined. -/
structure ResponseData where
  lessons : Option (List LessonResponse)
  progress : Option (List ProgressResponse)

/-- `JSON.stringify` and `JSON.parse` on users. `parse` gives nothing when it throws, and no user
when the text is `null`. -/
structure UserJson where
  stringify : SanitizedUser → String
  parse : String → Option (Option SanitizedUser)

/-- The client: its redux state, its storage, the storage operations and the thunks started so far,
and the tokens of the requests that returned the two lists. -/
structure Client where
  state : RootState
  storage : SessionStorage
  operations : List (StorageOperation × StoragePromise)
  thunks : List Thunk
  itemsToken : Option String
  progressToken : Option String

/-- The client when it is started, with what an earlier run left in its storage. -/
def initialClient (storage : SessionStorage) : Client where
  state := initialState
  storage := storage
  operations := []
  thunks := []
  itemsToken := none
  progressToken := none

namespace Client

variable (c : Client)

def dispatch (action : ReduxAction) : Client := { c with state := rootReducer c.state action }

/-- Start a thunk that waits at `t`. -/
def spawn (t : Thunk) : Client := { c with thunks := c.thunks ++ [t] }

/-- Start two storage operations. -/
def startStorage (a b : StorageOperation) : Client :=
  { c with operations := c.operations ++ [(a, .pending), (b, .pending)] }

/-- The thunk at a position waits at `t`. -/
def wait (i : ℕ) (t : Thunk) : Client := { c with thunks := c.thunks.set i t }

/-- The promise of the storage operation at a position. -/
def promise (op : ℕ) : StoragePromise := (c.operations[op]?.map Prod.snd).getD .pending

/-- `Promise.all` of two storage operations: the values when both are fulfilled, a rejection when
one is rejected. -/
def promiseAll (a b : ℕ) : Option (Except String (Option String × Option String)) :=
  match c.promise a, c.promise b with
  | .fulfilled x, .fulfilled y => some (.ok (x, y))
  -- one rejection is enough, whatever becomes of the other operation
  | .rejected message, _ => some (.error message)
  | _, .rejected message => some (.error message)
  | _, _ => none

/-! ## Up to the first `await` -/

def bootstrapSession : Client :=
  let c := c.dispatch .authBootstrapStart
  let n := c.operations.length
  (c.startStorage (.getItem .token) (.getItem .user)).spawn (.readingSession n (n + 1))

/-- `loginUser` and `registerUser` up to the response of `endpoint`. -/
def authRequest (endpoint : String) : Client :=
  (c.dispatch .authRequest).spawn (.awaitingAuth endpoint)

def loginUser : Client := c.authRequest "/auth/login"

def registerUser : Client := c.authRequest "/auth/register"

def logoutUser : Client :=
  let n := c.operations.length
  (c.startStorage (.removeItem .token) (.removeItem .user)).spawn (.removingSession n (n + 1))

def fetchLessons : Client :=
  let c := c.dispatch .lessonsRequest
  c.spawn (.awaitingApi .fetchLessons c.state.auth.token)

def fetchProgress : Client := c.spawn (.awaitingApi .fetchProgress c.state.auth.token)

def submitProgress (lessonId : String) (score : ℚ) : Client :=
  c.spawn (.awaitingApi (.submitProgress lessonId score) c.state.auth.token)

/-! ## Continuations -/

/-- The session that `bootstrapSession` finds in what it read: none, a text that cannot be parsed,
or a token with its user. -/
def storedSession (J : UserJson) :
    Option String × Option String → Except String (Option (String × Option SanitizedUser))
  | (some token, some userJson) =>
    if token = "" ∨ userJson = "" then .ok none
    else
      match J.parse userJson with
      | some user => .ok (some (token, user))
      | none => .error "JSON Parse error"
  | _ => .ok none

/-- The `try` block of `bootstrapSession` with what it read. -/
def restoredSession (J : UserJson) (read : Except String (Option String × Option String)) :
    Except String (Option (String × Option SanitizedUser)) := read.bind (storedSession J)

/-- `bootstrapSession` after it has read the storage. -/
def sessionRead (J : UserJson) (read : Except String (Option String × Option String)) : Client :=
  match restoredSession J read with
  | .ok (some (token, user)) => c.dispatch (.authBootstrapSuccess token user)
  | .ok none => c.dispatch .authBootstrapDone
  | .error _ => (c.dispatch (.authFailure "Could not restore session")).dispatch .authBootstrapDone

/-- `loginUser` and `registerUser` after the session is stored; a rejection is shown. -/
def sessionPersisted (token : String) (user : SanitizedUser) :
    Except String (Option String × Option String) → Client
  | .ok _ => c.dispatch (.authSuccess token user)
  | .error message => c.dispatch (.authFailure message)

/-- `logoutUser` after the session is removed from the storage; a rejection is passed on. -/
def sessionRemoved : Except String (Option String × Option String) → Client
  | .ok _ => (c.dispatch .authLogout).dispatch .lessonsReset
  | .error _ => c

/-- The thunk at a position goes on when its two storage operations are settled. -/
def storageAwaited (J : UserJson) (i : ℕ) : Client :=
  match c.thunks[i]? with
  | some (.readingSession a b) =>
    match c.promiseAll a b with
    | some read => (c.wait i .settled).sessionRead J read
    | none => c
  | some (.persistingSession token user a b) =>
    match c.promiseAll a b with
    | some saved => (c.wait i .settled).sessionPersisted token user saved
    | none => c
  | some (.removingSession a b) =>
    match c.promiseAll a b with
    | some removed => (c.wait i .settled).sessionRemoved removed
    | none => c
  | _ => c

/-- `loginUser` and `registerUser` after the response: the session is stored, or the failure is
shown. -/
def authAnswered (J : UserJson) (i : ℕ) (answer : Except String (String × SanitizedUser)) :
    Client :=
  match c.thunks[i]? with
  | some (.awaitingAuth _) =>
    match answer with
    | .ok (token, user) =>
      -- the session is shown only after it is stored
      let n := c.operations.length
      (c.startStorage (.setItem .token token) (.setItem .user (J.stringify user))).wait i
        (.persistingSession token user n (n + 1))
    | .error message => (c.wait i .settled).dispatch (.authFailure message)
  | _ => c

/-- Show the lessons that a request with this token returned. -/
def showLessons (token : Option String) (data : ResponseData) : Client :=
  { c.dispatch (.lessonsSuccess (data.lessons.getD [])) with itemsToken := token }

/-- Show the progress that a request with this token returned. -/
def showProgress (token : Option String) (data : ResponseData) : Client :=
  { c.dispatch (.progressSuccess (data.progress.getD [])) with progressToken := token }

/-- The continuation of a request that carried `token`. -/
def received (token : Option String) : ApiCall → Except String ResponseData → Client
  | .fetchLessons, .ok data => c.showLessons token data
  | .fetchProgress, .ok data => c.showProgress token data
  -- the lessons are fetched again, with the token of that moment
  | .submitProgress _ _, .ok data => (c.showProgress token data).fetchLessons
  | _, .error message => c.dispatch (.lessonsFailure message)

/-- The thunk at a position goes on with the response to its request. -/
def apiAnswered (i : ℕ) (answer : Except String ResponseData) : Client :=
  match c.thunks[i]? with
  | some (.awaitingApi call token) => (c.wait i .settled).received token call answer
  | _ => c

/-- The storage operation at a position is performed and its promise fulfilled. -/
def storageCompletes (op : ℕ) : Client :=
  match c.operations[op]? with
  | some (a, .pending) =>
    let (storage, value) := a.perform c.storage
    { c with storage, operations := c.operations.set op (a, .fulfilled value) }
  | _ => c

/-- The storage operation at a position fails. -/
def storageRejects (op : ℕ) (message : String) : Client :=
  match c.operations[op]? with
  | some (a, .pending) => { c with operations := c.operations.set op (a, .rejected message) }
  | _ => c

end Client

/-- What can happen next: a thunk is dispatched, a storage operation ends, a thunk goes on. -/
inductive ClientEvent where
  | bootstrapSession
  | loginUser
  | registerUser
  | logoutUser
  | fetchLessons
  | fetchProgress
  | submitProgress (lessonId : String) (score : ℚ)
  | storageCompletes (op : ℕ)
  | storageRejects (op : ℕ) (message : String)
  | storageAwaited (thunk : ℕ)
  | authAnswered (thunk : ℕ) (answer : Except String (String × SanitizedUser))
  | apiAnswered (thunk : ℕ) (answer : Except String ResponseData)

def Client.step (J : UserJson) (c : Client) : ClientEvent → Client
  | .bootstrapSession => c.bootstrapSession
  | .loginUser => c.loginUser
  | .registerUser => c.registerUser
  | .logoutUser => c.logoutUser
  | .fetchLessons => c.fetchLessons
  | .fetchProgress => c.fetchProgress
  | .submitProgress lessonId score => c.submitProgress lessonId score
  | .storageCompletes op => c.storageCompletes op
  | .storageRejects op message => c.storageRejects op message
  | .storageAwaited i => c.storageAwaited J i
  | .authAnswered i answer => c.authAnswered J i answer
  | .apiAnswered i answer => c.apiAnswered i answer

/-- What holds of some element of a list, when one element is replaced by another that agrees. -/
theorem any_set_of_eq {α : Type} {p : α → Bool} {xs : List α} {i : ℕ} {x y : α}
    (hi : xs[i]? = some x) (hp : p y = p x) : (xs.set i y).any p = xs.any p := by
  induction xs generalizing i with
  | nil => rfl
  | cons z zs ih =>
    cases i with
    | zero =>
      cases hi
      rw [List.set_cons_zero, List.any_cons, List.any_cons, hp]
    | succ i =>
      rw [List.set_cons_succ, List.any_cons, List.any_cons, ih hi]

/-- A thunk that goes on to wait for something of the same kind. -/
theorem Client.any_wait {c : Client} {p : Thunk → Bool} {i : ℕ} {t u : Thunk}
    (hi : c.thunks[i]? = some t) (hp : p u = p t) :
    (c.wait i u).thunks.any p = c.thunks.any p :=
  any_set_of_eq hi hp

end LanguageGuru
