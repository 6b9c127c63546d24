import LanguageGuru.Backend.Store
import LanguageGuru.Data.Keyed

/-!
# The memory store

The store over three lists in memory. Its operations hand out references to the live records: a
reference is the position of a record in its list, and the awaiting handler sees the record as it
is when it resumes. The lists only grow, so a reference never dangles. Lessons are never changed
and are handed out as they are.

## Main definitions

* `MemoryState`, `memoryStore P`: the lists, and the operations on them
* `createMemoryStore`: the initial lists

## Main results

* `exec_findUserByEmail`, `exec_createUser` and the like: a call without interference
-/

namespace LanguageGuru

structure MemoryState where
  users : List User
  lessons : List Lesson
  progress : List ProgressRecord

/-- `filter && field !== filter`, for a field that may be undefined. -/
def mismatch (filter : Option QueryValue) (field : Option String) : Bool :=
  match filter with
  | none => false
  | some (.str s) => s ≠ "" && field ≠ some s
  | some _ => true

/-- The predicate of `getLessons`. -/
def Filters.admits (f : Filters) (lesson : Lesson) : Bool :=
  !mismatch f.trackId lesson.trackId && !mismatch f.language (some lesson.language) &&
    !mismatch f.level (some lesson.level)

/-- The key of the record that a write is about. -/
def ProgressWrite.key (w : ProgressWrite) : String × String := (w.userId, w.lessonId)

/-- The change of an existing record. -/
def ProgressWrite.overwrite (w : ProgressWrite) (now : Time) (p : ProgressRecord) :
    ProgressRecord :=
  { p with completed := w.completed, score := w.score, updatedAt := now }

/-- The record of a first write. -/
def ProgressWrite.record (w : ProgressWrite) (now : Time) : ProgressRecord :=
  ⟨w.userId, w.lessonId, w.completed, w.score, now⟩

/-- The record that `createUser` makes of its argument. -/
def NewUser.record (payload : NewUser) (id : String) (now : Time) : User :=
  ⟨id, payload.username, payload.email, payload.role, payload.passwordHash, now⟩

/-- What an operation hands out: positions of records, or lessons. -/
@[reducible] def MemoryHandle : StoreCall → Type
  | .ready => Bool
  | .findUserByEmail _ => Option ℕ
  | .findUserById _ => Option ℕ
  | .createUser _ _ _ => ℕ
  | .updateUserRole _ _ => Option ℕ
  | .getLessons _ => List Lesson
  | .getLessonById _ => Option Lesson
  | .getProgressForUser _ => List ℕ
  | .upsertProgress _ _ => ℕ

/-- The operations of the memory store; each runs atomically when it is called. -/
def MemoryState.perform (P : Platform) : (c : StoreCall) → MemoryState →
    MemoryHandle c × MemoryState
  | .ready, s => (true, s)
  | .findUserByEmail email, s =>
    (s.users.findIdx? fun u => P.toLowerCase u.email = P.toLowerCase email, s)
  | .findUserById id, s => (s.users.findIdx? fun u => u.id = id, s)
  | .createUser payload newId now, s =>
    (s.users.length, { s with users := s.users ++ [payload.record newId now] })
  | .updateUserRole id role, s =>
    (s.users.findIdx? fun u => u.id = id,
      { s with users := Keyed.update User.id id (fun u => { u with role }) s.users })
  | .getLessons filters, s => (s.lessons.filter filters.admits, s)
  | .getLessonById id, s => (s.lessons.find? fun l => l.id = id, s)
  | .getProgressForUser userId, s =>
    (Keyed.indices (fun p => p.userId = userId) s.progress, s)
  | .upsertProgress w now, s =>
    (s.progress.findIdx fun p => p.key = w.key,
      { s with
        progress := Keyed.upsert ProgressRecord.key w.key (w.overwrite now) (w.record now)
          s.progress })

/-- The record at a position, which the lists never lose. -/
def deref {α : Type} (xs : List α) (i : ℕ) : Except Failure α :=
  match xs[i]? with
  | some x => .ok x
  | none => .error (.thrown "dangling reference")

/-- What a handler sees behind a reference in the state in which it resumes. -/
def MemoryState.view : (c : StoreCall) → MemoryHandle c → MemoryState → Except Failure (Answer c)
  | .ready, h, _ => .ok h
  | .findUserByEmail _, h, s => .ok (h.bind (s.users[·]?))
  | .findUserById _, h, s => .ok (h.bind (s.users[·]?))
  | .createUser _ _ _, h, s => deref s.users h
  | .updateUserRole _ _, h, s => .ok (h.bind (s.users[·]?))
  | .getLessons _, h, _ => .ok h
  | .getLessonById _, h, _ => .ok h
  | .getProgressForUser _, h, s => .ok (h.filterMap (s.progress[·]?))
  | .upsertProgress _ _, h, s => deref s.progress h

def memoryStore (P : Platform) : Store MemoryState where
  Handle := MemoryHandle
  perform := MemoryState.perform P
  view := MemoryState.view

/-- The demo account that both stores are seeded with. -/
def demoUser (P : Platform) (id salt : String) (now : Time) : User :=
  { id
    username := "demo"
    email := "demo@languageguru.app"
    role := "Software Engineer"
    passwordHash := P.hashSync "demo1234" salt
    createdAt := now }

/-- The lessons that both stores are seeded with. -/
def seedLessons (catalogue : List CoreLesson) (now : Time) : List Lesson :=
  catalogue.map fun l => { l with createdBy := "system", createdAt := now }

/-- The lists of a fresh memory store over the catalogue `CORE_LESSONS`. -/
def createMemoryStore (P : Platform) (catalogue : List CoreLesson) (salt : String) (now : Time) :
    MemoryState where
  users := [demoUser P "u_demo" salt now]
  lessons := seedLessons catalogue now
  progress := []

/-! ## Calls without interference -/

section Exec

open Process

variable {P : Platform} {O A : Type} (s : MemoryState)

/-- The account that is found under an email. -/
def MemoryState.userByEmail (P : Platform) (email : String) : Option User :=
  s.users.find? fun u => P.toLowerCase u.email = P.toLowerCase email

/-- The account with an id. -/
def MemoryState.userById (id : String) : Option User := Keyed.lookup User.id id s.users

/-- The lesson with an id. -/
def MemoryState.lessonById (id : String) : Option Lesson := s.lessons.find? fun l => l.id = id

/-- The progress records of a user. -/
def MemoryState.progressOf (userId : String) : List ProgressRecord :=
  s.progress.filter fun p => p.userId = userId

/-- The state after `createUser`. -/
def MemoryState.addUser (u : User) : MemoryState := { s with users := s.users ++ [u] }

/-- The state after `updateUserRole`. -/
def MemoryState.setRole (id role : String) : MemoryState :=
  { s with users := Keyed.update User.id id (fun u => { u with role }) s.users }

/-- The state after `upsertProgress`. -/
def MemoryState.writeProgress (w : ProgressWrite) (now : Time) : MemoryState :=
  { s with
    progress := Keyed.upsert ProgressRecord.key w.key (w.overwrite now) (w.record now) s.progress }

theorem exec_findUserByEmail (email : String)
    (k : Except Failure (Answer (.findUserByEmail email)) → Program Answer Failure O A) :
    (Program.call (.findUserByEmail email) k).exec (memoryStore P) s =
      (k (.ok (s.userByEmail P email))).exec (memoryStore P) s := by
  simp only [Program.exec_call, memoryStore, MemoryState.perform, MemoryState.view,
    Keyed.findIdx?_bind_getElem?]
  rfl

theorem exec_findUserById (id : String)
    (k : Except Failure (Answer (.findUserById id)) → Program Answer Failure O A) :
    (Program.call (.findUserById id) k).exec (memoryStore P) s =
      (k (.ok (s.userById id))).exec (memoryStore P) s := by
  simp only [Program.exec_call, memoryStore, MemoryState.perform, MemoryState.view,
    Keyed.findIdx?_bind_getElem?]
  rfl

theorem exec_createUser (payload : NewUser) (newId : String) (now : Time)
    (k : Except Failure (Answer (.createUser payload newId now)) → Program Answer Failure O A) :
    (Program.call (.createUser payload newId now) k).exec (memoryStore P) s =
      (k (.ok (payload.record newId now))).exec (memoryStore P)
        (s.addUser (payload.record newId now)) := by
  simp [memoryStore, MemoryState.perform, MemoryState.view, deref, MemoryState.addUser]

theorem exec_updateUserRole (id role : String)
    (k : Except Failure (Answer (.updateUserRole id role)) → Program Answer Failure O A) :
    (Program.call (.updateUserRole id role) k).exec (memoryStore P) s =
      (k (.ok ((s.userById id).map fun u => { u with role }))).exec (memoryStore P)
        (s.setRole id role) := by
  simp only [Program.exec_call, memoryStore, MemoryState.perform, MemoryState.view,
    Keyed.findIdx?_bind_getElem?_update]
  rfl

theorem exec_getLessons (filters : Filters)
    (k : Except Failure (Answer (.getLessons filters)) → Program Answer Failure O A) :
    (Program.call (.getLessons filters) k).exec (memoryStore P) s =
      (k (.ok (s.lessons.filter filters.admits))).exec (memoryStore P) s := rfl

theorem exec_getLessonById (id : String)
    (k : Except Failure (Answer (.getLessonById id)) → Program Answer Failure O A) :
    (Program.call (.getLessonById id) k).exec (memoryStore P) s =
      (k (.ok (s.lessonById id))).exec (memoryStore P) s := rfl

theorem exec_getProgressForUser (userId : String)
    (k : Except Failure (Answer (.getProgressForUser userId)) → Program Answer Failure O A) :
    (Program.call (.getProgressForUser userId) k).exec (memoryStore P) s =
      (k (.ok (s.progressOf userId))).exec (memoryStore P) s := by
  simp only [Program.exec_call, memoryStore, MemoryState.perform, MemoryState.view,
    Keyed.filterMap_indices]
  rfl

theorem exec_upsertProgress (w : ProgressWrite) (now : Time)
    (k : Except Failure (Answer (.upsertProgress w now)) → Program Answer Failure O A) :
    (Program.call (.upsertProgress w now) k).exec (memoryStore P) s =
      (k (.ok ((Keyed.lookup ProgressRecord.key w.key s.progress).elim (w.record now)
        (w.overwrite now)))).exec (memoryStore P) (s.writeProgress w now) := by
  simp only [Program.exec_call, memoryStore, MemoryState.perform, MemoryState.view, deref,
    Keyed.getElem?_findIdx_upsert]
  rfl

end Exec

end LanguageGuru
