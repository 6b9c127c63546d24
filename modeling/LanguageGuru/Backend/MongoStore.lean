import LanguageGuru.Backend.MemoryStore

/-!
# The MongoDB store

The store over three collections. Its operations hand out plain copies of the documents they
select. What Mongoose does with a query value that is not a string, which strings it casts to an
`ObjectId`, and the order in which `find` returns documents, are left open. The `_id` of lessons
and progress records, which no handler reads, is left out; the `_id` of a user is the `id` of its
record.

## Main definitions

* `Mongoose`: what is left open
* `MongoState`, `mongoStore P M`: the collections, and the operations on them
* `createMongoStore`: the seeding of a database

## Main results

* `MongoState.exec_findUserByEmail`, `MongoState.exec_createUser` and the like: a call without
  interference
-/

namespace LanguageGuru

/-- The open parts of Mongoose: the cast of ids, list and object queries on a string path, and the
order of the documents that `find` returns. -/
structure Mongoose where
  /-- Whether a string can be cast to an `ObjectId`. -/
  isObjectId : String → Bool
  /-- The error of a query value that cannot be cast. -/
  castError : QueryValue → Option Failure
  /-- Whether a list or an object query selects a field. -/
  selects : QueryValue → Option String → Bool
  lessonOrder : List Lesson → List Lesson
  progressOrder : List ProgressRecord → List ProgressRecord
  lessonOrder_perm : ∀ xs, (lessonOrder xs).Perm xs
  progressOrder_perm : ∀ xs, (progressOrder xs).Perm xs

structure MongoState where
  /-- Whether the connection is ready. -/
  connected : Bool
  users : List User
  lessons : List Lesson
  progress : List ProgressRecord

/-- The error of a filter that is put into the query: a string needs no cast. -/
def Mongoose.filterError (M : Mongoose) : Option QueryValue → Option Failure
  | none => none
  | some (.str _) => none
  | some v => M.castError v

/-- Whether the query with this filter selects a field; a falsy filter is not put into the
query. -/
def Mongoose.filterSelects (M : Mongoose) (filter : Option QueryValue) (field : Option String) :
    Bool :=
  match filter with
  | none => true
  | some (.str s) => s = "" || field = some s
  | some v => M.selects v field

/-- The operations of the MongoDB store. -/
def MongoState.perform (P : Platform) (M : Mongoose) : (c : StoreCall) → MongoState →
    Except Failure (Answer c) × MongoState
  | .ready, s => (.ok s.connected, s)
  | .findUserByEmail email, s => (.ok (s.users.find? fun u => u.email = P.toLowerCase email), s)
  | .findUserById id, s =>
    if M.isObjectId id then (.ok (s.users.find? fun u => u.id = id), s)
    else (.error (.rejected "Cast to ObjectId failed"), s)
  | .createUser payload newId now, s =>
    let doc := { payload.record newId now with email := P.toLowerCase payload.email }
    -- the required fields are validated before the document is sent to the unique index
    if doc.username = "" ∨ doc.email = "" ∨ doc.passwordHash = "" then
      (.error (.rejected "User validation failed"), s)
    else if s.users.any fun u => u.email = doc.email then
      (.error (.rejected "E11000 duplicate key error"), s)
    else (.ok doc, { s with users := s.users ++ [doc] })
  | .updateUserRole id role, s =>
    let users := Keyed.update User.id id (fun u => { u with role }) s.users
    if M.isObjectId id then (.ok (users.find? fun u => u.id = id), { s with users })
    else (.error (.rejected "Cast to ObjectId failed"), s)
  | .getLessons f, s =>
    match (M.filterError f.trackId).or ((M.filterError f.language).or (M.filterError f.level)) with
    | some e => (.error e, s)
    | none =>
      (.ok (M.lessonOrder (s.lessons.filter fun l =>
        M.filterSelects f.trackId l.trackId && M.filterSelects f.language (some l.language) &&
          M.filterSelects f.level (some l.level))), s)
  | .getLessonById id, s => (.ok (s.lessons.find? fun l => l.id = id), s)
  | .getProgressForUser userId, s =>
    (.ok (M.progressOrder (s.progress.filter fun p => p.userId = userId)), s)
  | .upsertProgress w now, s =>
    -- one `findOneAndUpdate`, which answers with the document after the update
    let progress := Keyed.upsert ProgressRecord.key w.key (w.overwrite now) (w.record now)
      s.progress
    (.ok (((Keyed.lookup ProgressRecord.key w.key s.progress).map (w.overwrite now)).getD
      (w.record now)), { s with progress })

def mongoStore (P : Platform) (M : Mongoose) : Store MongoState where
  Handle c := Except Failure (Answer c)
  perform := MongoState.perform P M
  view _ h _ := h

/-- The seeding of a database: the catalogue when there are no lessons, the demo account when
there is none. -/
def createMongoStore (P : Platform) (catalogue : List CoreLesson) (demoId salt : String)
    (now : Time) (db : MongoState) : MongoState :=
  let db :=
    if db.lessons.length = 0 then { db with lessons := seedLessons catalogue now } else db
  -- the demo account is looked up whether or not the lessons were there
  match db.users.find? fun u => u.email = "demo@languageguru.app" with
  | some _ => db
  | none => { db with users := db.users ++ [demoUser P demoId salt now] }

/-! ## Calls without interference -/

namespace MongoState

open Process

variable {P : Platform} {M : Mongoose} {O A : Type} (s : MongoState)

/-- The account that is found under an email. -/
def userByEmail (P : Platform) (email : String) : Option User :=
  s.users.find? fun u => u.email = P.toLowerCase email

/-- The account with an id. -/
def userById (id : String) : Option User := Keyed.lookup User.id id s.users

/-- The lessons that the filters select. -/
def lessonsFor (M : Mongoose) (f : Filters) : List Lesson :=
  M.lessonOrder (s.lessons.filter fun l =>
    M.filterSelects f.trackId l.trackId && M.filterSelects f.language (some l.language) &&
      M.filterSelects f.level (some l.level))

/-- The lesson with an id. -/
def lessonById (id : String) : Option Lesson := s.lessons.find? fun l => l.id = id

/-- The progress records of a user. -/
def progressOf (M : Mongoose) (userId : String) : List ProgressRecord :=
  M.progressOrder (s.progress.filter fun p => p.userId = userId)

/-- The state after `createUser`. -/
def addUser (u : User) : MongoState := { s with users := s.users ++ [u] }

/-- The state after `updateUserRole`. -/
def setRole (id role : String) : MongoState :=
  { s with users := Keyed.update User.id id (fun u => { u with role }) s.users }

/-- The state after `upsertProgress`. -/
def writeProgress (w : ProgressWrite) (now : Time) : MongoState :=
  { s with
    progress := Keyed.upsert ProgressRecord.key w.key (w.overwrite now) (w.record now) s.progress }

/-- The document that `createUser` stores. -/
def document (P : Platform) (payload : NewUser) (newId : String) (now : Time) : User :=
  { payload.record newId now with email := P.toLowerCase payload.email }

theorem exec_findUserByEmail (email : String)
    (k : Except Failure (Answer (.findUserByEmail email)) → Program Answer Failure O A) :
    (Program.call (.findUserByEmail email) k).exec (mongoStore P M) s =
      (k (.ok (s.userByEmail P email))).exec (mongoStore P M) s := rfl

theorem exec_findUserById {id : String} (hid : M.isObjectId id = true)
    (k : Except Failure (Answer (.findUserById id)) → Program Answer Failure O A) :
    (Program.call (.findUserById id) k).exec (mongoStore P M) s =
      (k (.ok (s.userById id))).exec (mongoStore P M) s := by
  simp only [Program.exec_call, mongoStore, MongoState.perform, if_pos hid]
  rfl

/-- A user with a name, an email and a password hash is created when its email is new. -/
theorem exec_createUser {payload : NewUser} (newId : String) (now : Time)
    (hname : payload.username ≠ "") (hemail : P.toLowerCase payload.email ≠ "")
    (hhash : payload.passwordHash ≠ "") (hnew : s.userByEmail P payload.email = none)
    (k : Except Failure (Answer (.createUser payload newId now)) → Program Answer Failure O A) :
    (Program.call (.createUser payload newId now) k).exec (mongoStore P M) s =
      (k (.ok (document P payload newId now))).exec (mongoStore P M)
        (s.addUser (document P payload newId now)) := by
  have hvalid : ¬ (payload.username = "" ∨ P.toLowerCase payload.email = "" ∨
      payload.passwordHash = "") := by
    rintro (h | h | h)
    exacts [hname h, hemail h, hhash h]
  have hunique : (s.users.any fun u => u.email = P.toLowerCase payload.email) = false := by
    rw [userByEmail, List.find?_eq_none] at hnew
    simpa using hnew
  simp only [Program.exec_call, mongoStore, MongoState.perform, NewUser.record, if_neg hvalid,
    hunique, Bool.false_eq_true, if_false]
  rfl

theorem exec_updateUserRole {id : String} (hid : M.isObjectId id = true) (role : String)
    (k : Except Failure (Answer (.updateUserRole id role)) → Program Answer Failure O A) :
    (Program.call (.updateUserRole id role) k).exec (mongoStore P M) s =
      (k (.ok ((s.userById id).map fun u => { u with role }))).exec (mongoStore P M)
        (s.setRole id role) := by
  have hfound : ((Keyed.update User.id id (fun u => { u with role }) s.users).find?
      fun u => u.id = id) = (s.userById id).map fun u => { u with role } := by
    refine Keyed.lookup_update_self ?_ s.users
    exact fun _ h => h
  simp only [Program.exec_call, mongoStore, MongoState.perform, if_pos hid, hfound]
  rfl

/-- A filter that is absent or a string. -/
def IsString (filter : Option QueryValue) : Prop := ∀ v ∈ filter, ∃ x, v = .str x

theorem filterError_eq_none {filter : Option QueryValue} (h : IsString filter) :
    M.filterError filter = none := by
  cases filter with
  | none => rfl
  | some v =>
    obtain ⟨x, rfl⟩ := h v rfl
    rfl

theorem exec_getLessons {filters : Filters} (htrack : IsString filters.trackId)
    (hlanguage : IsString filters.language) (hlevel : IsString filters.level)
    (k : Except Failure (Answer (.getLessons filters)) → Program Answer Failure O A) :
    (Program.call (.getLessons filters) k).exec (mongoStore P M) s =
      (k (.ok (s.lessonsFor M filters))).exec (mongoStore P M) s := by
  simp only [Program.exec_call, mongoStore, MongoState.perform, filterError_eq_none htrack,
    filterError_eq_none hlanguage, filterError_eq_none hlevel, Option.or_none]
  rfl

theorem exec_getLessonById (id : String)
    (k : Except Failure (Answer (.getLessonById id)) → Program Answer Failure O A) :
    (Program.call (.getLessonById id) k).exec (mongoStore P M) s =
      (k (.ok (s.lessonById id))).exec (mongoStore P M) s := rfl

theorem exec_getProgressForUser (userId : String)
    (k : Except Failure (Answer (.getProgressForUser userId)) → Program Answer Failure O A) :
    (Program.call (.getProgressForUser userId) k).exec (mongoStore P M) s =
      (k (.ok (s.progressOf M userId))).exec (mongoStore P M) s := rfl

theorem exec_upsertProgress (w : ProgressWrite) (now : Time)
    (k : Except Failure (Answer (.upsertProgress w now)) → Program Answer Failure O A) :
    (Program.call (.upsertProgress w now) k).exec (mongoStore P M) s =
      (k (.ok (((Keyed.lookup ProgressRecord.key w.key s.progress).map (w.overwrite now)).getD
        (w.record now)))).exec (mongoStore P M) (s.writeProgress w now) := rfl

end MongoState

end LanguageGuru
