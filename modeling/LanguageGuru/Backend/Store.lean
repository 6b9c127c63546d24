import LanguageGuru.Backend.Platform
import LanguageGuru.Process.Program

/-!
# The store interface

The records that the backend keeps, and the nine operations that the memory store and the MongoDB
store both offer. An operation that reads the clock or draws a random id takes what it reads as an
argument.

## Main definitions

* `User`, `Lesson`, `ProgressRecord`: the records
* `QueryValue`, `Filters`: what the query parser can produce for the lesson filters
* `StoreCall`, `Answer`: the operations and the types of their results
-/

namespace LanguageGuru

structure User where
  id : String
  username : String
  email : String
  role : String
  passwordHash : String
  createdAt : Time
  deriving DecidableEq, Repr

/-- The argument of `createUser`. -/
structure NewUser where
  username : String
  email : String
  role : String
  passwordHash : String
  deriving DecidableEq, Repr

structure Weights where
  situation : ℚ
  task : ℚ
  action : ℚ
  result : ℚ
  deriving DecidableEq, Repr

structure Keywords where
  situation : List String
  task : List String
  action : List String
  result : List String
  deriving DecidableEq, Repr

structure Rubric where
  weights : Weights
  keywords : Keywords
  deriving DecidableEq, Repr

structure Question where
  question : String
  options : List String
  answer : String
  rubric : Option Rubric
  deriving DecidableEq, Repr

/-- A lesson of the bundled catalogue. -/
structure CoreLesson where
  id : String
  trackId : Option String
  trackName : Option String
  title : String
  content : String
  language : String
  level : String
  estimatedMinutes : ℕ
  quiz : List Question
  deriving DecidableEq, Repr

/-- A stored lesson. -/
structure Lesson extends CoreLesson where
  createdBy : String
  createdAt : Time
  deriving DecidableEq, Repr

structure ProgressRecord where
  userId : String
  lessonId : String
  completed : Bool
  score : ℚ
  updatedAt : Time
  deriving DecidableEq, Repr

/-- The key under which both stores keep a progress record. -/
def ProgressRecord.key (p : ProgressRecord) : String × String := (p.userId, p.lessonId)

/-- The argument of `upsertProgress`. -/
structure ProgressWrite where
  userId : String
  lessonId : String
  completed : Bool
  score : ℚ
  deriving DecidableEq, Repr

/-- A value of a parsed query string: a string, a list, or a nested object. -/
inductive QueryValue where
  | str (s : String)
  | list (xs : List QueryValue)
  | obj (fields : List (String × QueryValue))

/-- Whether the value is truthy: only the empty string is not. -/
def QueryValue.truthy : QueryValue → Bool
  | .str s => s ≠ ""
  | .list _ => true
  | .obj _ => true

/-- The argument of `getLessons`; an absent parameter is undefined. -/
structure Filters where
  trackId : Option QueryValue := none
  level : Option QueryValue := none
  language : Option QueryValue := none

/-- The operations of a store. `createUser` draws the new id and reads the clock, and
`upsertProgress` reads the clock. -/
inductive StoreCall where
  | ready
  | findUserByEmail (email : String)
  | findUserById (id : String)
  | createUser (payload : NewUser) (newId : String) (now : Time)
  | updateUserRole (id role : String)
  | getLessons (filters : Filters)
  | getLessonById (id : String)
  | getProgressForUser (userId : String)
  | upsertProgress (write : ProgressWrite) (now : Time)

/-- What an operation fulfils with; `none` stands for `null`. -/
@[reducible] def Answer : StoreCall → Type
  | .ready => Bool
  | .findUserByEmail _ => Option User
  | .findUserById _ => Option User
  | .createUser _ _ _ => User
  | .updateUserRole _ _ => Option User
  | .getLessons _ => List Lesson
  | .getLessonById _ => Option Lesson
  | .getProgressForUser _ => List ProgressRecord
  | .upsertProgress _ _ => ProgressRecord

/-- Why an asynchronous function rejects: a store call rejected, or the function threw. -/
inductive Failure where
  | rejected (message : String)
  | thrown (message : String)
  deriving DecidableEq, Repr

/-- A store with the state `S`. -/
abbrev Store (S : Type) := Process.Service Answer Failure S

end LanguageGuru
