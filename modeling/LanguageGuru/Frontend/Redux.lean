import LanguageGuru.Backend.Http

/-!
# The redux state of the client

The state that the reducers keep, the actions that the thunks dispatch, and the reducers.

## Main definitions

* `AuthState`, `LessonsState`, `RootState`: the state, with its initial values
* `ReduxAction`: the actions with their payloads
* `authReducer`, `lessonsReducer`, `rootReducer`: what an action does to the state
-/

namespace LanguageGuru

structure AuthState where
  user : Option SanitizedUser
  token : Option String
  isLoading : Bool
  isBootstrapping : Bool
  error : Option String
  deriving DecidableEq, Repr

def initialAuthState : AuthState where
  user := none
  token := none
  isLoading := false
  isBootstrapping := true
  error := none

structure LessonsState where
  items : List LessonResponse
  progress : List ProgressResponse
  isLoading : Bool
  error : Option String
  deriving DecidableEq, Repr

def initialLessonsState : LessonsState where
  items := []
  progress := []
  isLoading := false
  error := none

/-- The actions. The user of a session is null when the stored text says so. -/
inductive ReduxAction where
  | authBootstrapStart
  | authRequest
  | authBootstrapSuccess (token : String) (user : Option SanitizedUser)
  | authBootstrapDone
  | authSuccess (token : String) (user : SanitizedUser)
  | authFailure (message : String)
  | authLogout
  | lessonsRequest
  | lessonsSuccess (items : List LessonResponse)
  | lessonsFailure (message : String)
  | progressSuccess (progress : List ProgressResponse)
  | lessonsReset
  deriving DecidableEq, Repr

def authReducer (state : AuthState) : ReduxAction → AuthState
  | .authBootstrapStart => { state with isLoading := true, error := none }
  | .authRequest => { state with isLoading := true, error := none }
  | .authBootstrapSuccess token user =>
    { state with
      user, token := some token, isLoading := false, isBootstrapping := false, error := none }
  | .authBootstrapDone => { state with isLoading := false, isBootstrapping := false }
  | .authSuccess token user =>
    { state with user := some user, token := some token, isLoading := false, error := none }
  | .authFailure message => { state with isLoading := false, error := some message }
  | .authLogout => { initialAuthState with isBootstrapping := false }
  | _ => state

def lessonsReducer (state : LessonsState) : ReduxAction → LessonsState
  | .lessonsRequest => { state with isLoading := true, error := none }
  | .lessonsSuccess items => { state with isLoading := false, items, error := none }
  | .lessonsFailure message => { state with isLoading := false, error := some message }
  | .progressSuccess progress => { state with progress, error := none }
  | .lessonsReset => initialLessonsState
  | _ => state

structure RootState where
  auth : AuthState
  lessons : LessonsState
  deriving DecidableEq, Repr

def initialState : RootState := ⟨initialAuthState, initialLessonsState⟩

/-- `combineReducers`: every reducer sees every action. -/
def rootReducer (state : RootState) (action : ReduxAction) : RootState :=
  ⟨authReducer state.auth action, lessonsReducer state.lessons action⟩

end LanguageGuru
