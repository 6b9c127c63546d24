import LanguageGuru.Backend.StoreEquivalence

/-!
# Seeding after a crash

The starts of a server on one database. A start seeds the lessons when it counts none, one document
after another, and the demo account when it finds none. A start that is killed in between leaves
what it has written. A later start counts the lessons, and takes an incomplete catalogue for a
complete one.

## Main definitions

* `SeedWrite`, `seedWrites`: the writes of a start, in order
* `DatabaseEvent`, `databaseStep`: starts that complete or are killed, and store operations
* `Interrupts`: a start is killed after it has written some lessons, but not all of them
* `Seeded`: what a start that completes should leave

## Main results

* `createMongoStore_eq`: the seeding is the sequence of its writes
* `catalogued_databaseStep`: the lessons are always a first part of the catalogue
* `seeding_recovers_iff`: when every start that completes leaves a seeded database
-/

namespace LanguageGuru

open Process

/-- A write of the seeding: a document of `insertMany`, or `User.create`. -/
inductive SeedWrite where
  | insertLesson (l : Lesson)
  | createUser (u : User)

def SeedWrite.lesson? : SeedWrite → Option Lesson
  | .insertLesson l => some l
  | .createUser _ => none

def SeedWrite.user? : SeedWrite → Option User
  | .insertLesson _ => none
  | .createUser u => some u

def SeedWrite.apply (db : MongoState) : SeedWrite → MongoState
  | .insertLesson l => { db with lessons := db.lessons ++ [l] }
  | .createUser u => { db with users := db.users ++ [u] }

/-- What a start draws: the id and the salt of the demo account, and its clock. -/
structure StartSeeds where
  demoId : String
  salt : String
  now : Time
  deriving Repr

/-- The email of the demo account. -/
def demoEmail : String := "demo@languageguru.app"

section Start

variable (P : Platform) (catalogue : List CoreLesson) (seeds : StartSeeds) (db : MongoState)

/-- The lessons that a start writes: the catalogue, when it counts none. -/
def missingLessons : List Lesson :=
  if db.lessons.length = 0 then seedLessons catalogue seeds.now else []

/-- The users that a start writes: the demo account, when it finds none. -/
def missingUsers : List User :=
  match db.users.find? fun u => u.email = demoEmail with
  | some _ => []
  | none => [demoUser P seeds.demoId seeds.salt seeds.now]

/-- The writes of a start, in order. -/
def seedWrites : List SeedWrite :=
  (missingLessons catalogue seeds db).map .insertLesson ++ (missingUsers P seeds db).map .createUser

/-- The database after some writes. -/
theorem foldl_apply (ws : List SeedWrite) :
    ws.foldl SeedWrite.apply db =
      { db with
        lessons := db.lessons ++ ws.filterMap SeedWrite.lesson?
        users := db.users ++ ws.filterMap SeedWrite.user? } := by
  induction ws generalizing db with
  | nil => simp
  | cons w ws ih =>
    rw [List.foldl_cons, ih]
    cases w <;> simp [SeedWrite.apply, SeedWrite.lesson?, SeedWrite.user?, List.filterMap_cons]

/-- A start that is killed after some of its writes. -/
def killedStart (writes : ℕ) : MongoState :=
  ((seedWrites P catalogue seeds db).take writes).foldl SeedWrite.apply db

theorem killedStart_eq (writes : ℕ) :
    killedStart P catalogue seeds db writes =
      { db with
        lessons := db.lessons ++ (missingLessons catalogue seeds db).take writes
        users := db.users ++ (missingUsers P seeds db).take
          (writes - (missingLessons catalogue seeds db).length) } := by
  have hlesson : ∀ ls : List Lesson,
      (ls.map SeedWrite.insertLesson).filterMap SeedWrite.lesson? = ls ∧
        (ls.map SeedWrite.insertLesson).filterMap SeedWrite.user? = [] := fun ls => by
    simp [List.filterMap_map, Function.comp_def, SeedWrite.lesson?, SeedWrite.user?]
  have huser : ∀ us : List User,
      (us.map SeedWrite.createUser).filterMap SeedWrite.lesson? = [] ∧
        (us.map SeedWrite.createUser).filterMap SeedWrite.user? = us := fun us => by
    simp [List.filterMap_map, Function.comp_def, SeedWrite.lesson?, SeedWrite.user?]
  rw [killedStart, foldl_apply, seedWrites, List.take_append, List.filterMap_append,
    List.filterMap_append, ← List.map_take, ← List.map_take, (hlesson _).1, (hlesson _).2,
    (huser _).1, (huser _).2, List.length_map, List.append_nil, List.nil_append]

/-- The seeding adds what is missing. -/
theorem createMongoStore_missing :
    createMongoStore P catalogue seeds.demoId seeds.salt seeds.now db =
      { db with
        lessons := db.lessons ++ missingLessons catalogue seeds db
        users := db.users ++ missingUsers P seeds db } := by
  unfold createMongoStore missingLessons missingUsers demoEmail
  by_cases hempty : db.lessons.length = 0
  · have hlessons : db.lessons = [] := List.length_eq_zero_iff.mp hempty
    simp only [if_pos hempty]
    cases db.users.find? fun u => u.email = "demo@languageguru.app" with
    | some u => simp [hlessons]
    | none => simp [hlessons]
  · simp only [if_neg hempty]
    cases db.users.find? fun u => u.email = "demo@languageguru.app" with
    | some u => simp
    | none => simp

/-- **The seeding is the sequence of its writes**: a start that is not killed. -/
theorem createMongoStore_eq :
    createMongoStore P catalogue seeds.demoId seeds.salt seeds.now db =
      killedStart P catalogue seeds db (seedWrites P catalogue seeds db).length := by
  rw [createMongoStore_missing, killedStart_eq, seedWrites, List.length_append, List.length_map,
    List.length_map, Nat.add_sub_cancel_left, List.take_length,
    List.take_of_length_le (Nat.le_add_right _ _)]

end Start

/-! ## Starts on one database -/

/-- What happens to a database: a start that completes, a start that is killed after some of its
writes, and a store operation of a request between starts. -/
inductive DatabaseEvent where
  | start (seeds : StartSeeds)
  | killed (seeds : StartSeeds) (writes : ℕ)
  | operation (c : StoreCall)

section Runs

variable (P : Platform) (M : Mongoose) (catalogue : List CoreLesson)

def databaseStep (db : MongoState) : DatabaseEvent → MongoState
  | .start seeds => createMongoStore P catalogue seeds.demoId seeds.salt seeds.now db
  | .killed seeds writes => killedStart P catalogue seeds db writes
  | .operation c => (MongoState.perform P M c db).2

/-- A database before the first start. -/
def emptyDatabase : MongoState := ⟨true, [], [], []⟩

/-- A start that counts no lessons is killed after it has written some of them, but not all. -/
def Interrupts (db : MongoState) : DatabaseEvent → Prop
  | .killed _ writes => db.lessons.length = 0 ∧ 0 < writes ∧ writes < catalogue.length
  | _ => False

instance (db : MongoState) : (e : DatabaseEvent) → Decidable (Interrupts catalogue db e)
  | .start _ => inferInstanceAs (Decidable False)
  | .operation _ => inferInstanceAs (Decidable False)
  | .killed _ writes =>
    inferInstanceAs (Decidable (db.lessons.length = 0 ∧ 0 < writes ∧ writes < catalogue.length))

/-- What a start that completes should leave of the database that it finds: one document for each
lesson of the catalogue, one demo account, and all other users and all progress as they were. -/
structure Seeded (db db' : MongoState) : Prop where
  lessons : ∀ c ∈ catalogue, (db'.lessons.countP fun l => l.id = c.id) = 1
  demo : (db'.users.countP fun u => u.email = demoEmail) = 1
  users : (db'.users.filter fun u => u.email ≠ demoEmail) =
    db.users.filter fun u => u.email ≠ demoEmail
  progress : db'.progress = db.progress

/-- The lessons are a first part of the catalogue, and no email is used twice. -/
structure Catalogued (db : MongoState) : Prop where
  lessons : db.lessons.map Lesson.toCoreLesson = catalogue.take db.lessons.length
  emails : (db.users.map User.email).Nodup

variable {P M catalogue} {db : MongoState}

theorem catalogued_emptyDatabase : Catalogued catalogue emptyDatabase :=
  ⟨rfl, List.nodup_nil⟩

theorem map_toCoreLesson_seedLessons (now : Time) :
    (seedLessons catalogue now).map Lesson.toCoreLesson = catalogue := by
  simp [seedLessons, List.map_map, Function.comp_def]

theorem Catalogued.length_le (h : Catalogued catalogue db) :
    db.lessons.length ≤ catalogue.length := by
  have hlength := congrArg List.length h.lessons
  rw [List.length_map, List.length_take] at hlength
  omega

/-- Adding the demo account when there is none keeps the emails distinct. -/
theorem nodup_emails_missingUsers (seeds : StartSeeds) (h : (db.users.map User.email).Nodup)
    (n : ℕ) : ((db.users ++ (missingUsers P seeds db).take n).map User.email).Nodup := by
  unfold missingUsers
  cases hfind : db.users.find? fun u => u.email = demoEmail with
  | some u => simpa using h
  | none =>
    -- the lookup found no demo account, so its email is new
    have hnew : demoEmail ∉ db.users.map User.email := by
      intro hmem
      obtain ⟨u, hu, he⟩ := List.mem_map.mp hmem
      exact absurd (decide_eq_true he) (List.find?_eq_none.mp hfind u hu)
    cases n with
    | zero => simpa using h
    | succ n =>
      rw [List.take_of_length_le (by simp), List.map_append]
      refine List.nodup_append.mpr ⟨h, List.nodup_singleton _, fun e he e' he' => ?_⟩
      obtain rfl := List.mem_singleton.mp he'
      rintro rfl
      exact hnew he

theorem catalogued_killedStart (h : Catalogued catalogue db) (seeds : StartSeeds) (writes : ℕ) :
    Catalogued catalogue (killedStart P catalogue seeds db writes) := by
  rw [killedStart_eq]
  refine ⟨?_, nodup_emails_missingUsers seeds h.emails _⟩
  unfold missingLessons
  split_ifs with hempty
  · -- a prefix of the writes writes a first part of the catalogue
    have hnone : db.lessons = [] := List.length_eq_zero_iff.mp hempty
    have hlength : (seedLessons catalogue seeds.now).length = catalogue.length :=
      List.length_map _
    rw [hnone, List.nil_append, List.map_take, map_toCoreLesson_seedLessons, List.length_take,
      hlength, List.take_eq_take_iff]
    omega
  · simpa using h.lessons

/-- No store operation changes a lesson, and the unique index keeps the emails distinct. -/
theorem catalogued_perform (h : Catalogued catalogue db) (c : StoreCall) :
    Catalogued catalogue (MongoState.perform P M c db).2 ∧
      (MongoState.perform P M c db).2.lessons = db.lessons := by
  cases c with
  | createUser payload newId now =>
    unfold MongoState.perform
    dsimp only
    split_ifs with hvalid htaken
    · exact ⟨h, rfl⟩
    · exact ⟨h, rfl⟩
    · -- the unique index let the email through
      refine ⟨⟨h.lessons, ?_⟩, rfl⟩
      rw [List.map_append]
      refine List.nodup_append.mpr ⟨h.emails, List.nodup_singleton _, fun e he e' he' => ?_⟩
      obtain ⟨u, hu, rfl⟩ := List.mem_map.mp he
      obtain rfl := List.mem_singleton.mp he'
      exact fun heq => htaken (List.any_eq_true.mpr ⟨u, hu, decide_eq_true heq⟩)
  | updateUserRole id role =>
    have hemails : ∀ us : List User,
        (Keyed.update User.id id (fun u => { u with role }) us).map User.email =
          us.map User.email := by
      intro us
      refine Keyed.map_update ?_ us
      exact fun _ _ => rfl
    unfold MongoState.perform
    dsimp only
    split_ifs
    · refine ⟨⟨h.lessons, ?_⟩, rfl⟩
      rw [hemails]
      exact h.emails
    · exact ⟨h, rfl⟩
  | findUserById id =>
    unfold MongoState.perform
    dsimp only
    split_ifs <;> exact ⟨h, rfl⟩
  | getLessons filters =>
    unfold MongoState.perform
    dsimp only
    split <;> exact ⟨h, rfl⟩
  | upsertProgress w now => exact ⟨⟨h.lessons, h.emails⟩, rfl⟩
  | _ => exact ⟨h, rfl⟩

/-- **The lessons are always a first part of the catalogue.** -/
theorem catalogued_databaseStep (h : Catalogued catalogue db) (e : DatabaseEvent) :
    Catalogued catalogue (databaseStep P M catalogue db e) := by
  cases e with
  | start seeds =>
    rw [databaseStep, createMongoStore_eq]
    exact catalogued_killedStart h seeds _
  | killed seeds writes => exact catalogued_killedStart h seeds writes
  | operation c => exact (catalogued_perform h c).1

/-- No lesson of the catalogue is there, or all of them are. -/
def Whole (catalogue : List CoreLesson) (db : MongoState) : Prop :=
  db.lessons.length = 0 ∨ db.lessons.length = catalogue.length

theorem length_lessons_killedStart (seeds : StartSeeds) (writes : ℕ) :
    (killedStart P catalogue seeds db writes).lessons.length =
      if db.lessons.length = 0 then min writes catalogue.length else db.lessons.length := by
  rw [killedStart_eq]
  unfold missingLessons
  split_ifs with hempty
  · simp [hempty, seedLessons]
  · simp

/-- A step leaves the catalogue whole when it was whole and the step does not interrupt it; once
broken, it stays so. -/
theorem whole_databaseStep (h : Catalogued catalogue db) (e : DatabaseEvent) :
    Whole catalogue (databaseStep P M catalogue db e) ↔
      Whole catalogue db ∧ ¬ Interrupts catalogue db e := by
  have hle := h.length_le
  cases e with
  | start seeds =>
    -- a start that completes gets through all lessons, and never interrupts
    have hwrites : db.lessons.length = 0 →
        catalogue.length ≤ (seedWrites P catalogue seeds db).length := by
      intro hempty
      rw [seedWrites, List.length_append, List.length_map, missingLessons, if_pos hempty]
      simp [seedLessons]
    rw [Whole, databaseStep, createMongoStore_eq, length_lessons_killedStart, Whole]
    simp only [Interrupts]
    split_ifs with hempty
    · have := hwrites hempty
      simp only [hempty, true_or, not_false_eq_true, and_true, iff_true]
      omega
    · simp
  | killed seeds writes =>
    -- on an empty collection the number of writes decides; a collection that is not empty is left
    -- as it is
    rw [Whole, databaseStep, length_lessons_killedStart, Whole]
    simp only [Interrupts]
    split_ifs with hempty
    · simp only [hempty, true_or, true_and]
      omega
    · simp [hempty]
  | operation c =>
    rw [Whole, databaseStep, (catalogued_perform h c).2, Whole]
    simp [Interrupts]

/-- The database after some events. -/
def databaseAfter (P : Platform) (M : Mongoose) (catalogue : List CoreLesson)
    (events : List DatabaseEvent) : MongoState :=
  run (databaseStep P M catalogue) emptyDatabase events

theorem catalogued_databaseAfter (events : List DatabaseEvent) :
    Catalogued catalogue (databaseAfter P M catalogue events) :=
  run_invariant (I := Catalogued catalogue) (fun _ e h => catalogued_databaseStep h e)
    catalogued_emptyDatabase events

theorem databaseAfter_snoc (past : List DatabaseEvent) (e : DatabaseEvent) :
    databaseAfter P M catalogue (past ++ [e]) =
      databaseStep P M catalogue (databaseAfter P M catalogue past) e :=
  run_snoc (databaseStep P M catalogue) emptyDatabase past e

/-- The lessons are whole after a run if and only if no start of it interrupted them. -/
theorem whole_databaseAfter (events : List DatabaseEvent) :
    Whole catalogue (databaseAfter P M catalogue events) ↔
      StepsMeet (databaseStep P M catalogue) (fun db e => ¬ Interrupts catalogue db e)
        emptyDatabase events := by
  -- on the last event, which is the only one that can break the lessons anew
  induction events using List.reverseRecOn with
  | nil => exact iff_of_true (.inl rfl) trivial
  | append_singleton past e ih =>
    rw [databaseAfter_snoc, whole_databaseStep (catalogued_databaseAfter past) e, ih,
      stepsMeet_append]
    simp only [StepsMeet, and_true]
    rfl

/-! ## What a start leaves -/

/-- The documents for an id, counted in the catalogue. -/
theorem countP_id_eq (ls : List Lesson) (id : String) :
    (ls.countP fun l => l.id = id) = ((ls.map Lesson.toCoreLesson).map CoreLesson.id).count id := by
  rw [List.count, List.countP_map, List.countP_map]
  refine List.countP_congr fun l _ => ?_
  simp

/-- A start that completes leaves one demo account. -/
theorem countP_demo_createMongoStore (h : Catalogued catalogue db) (seeds : StartSeeds) :
    ((createMongoStore P catalogue seeds.demoId seeds.salt seeds.now db).users.countP
      fun u => u.email = demoEmail) = 1 := by
  rw [createMongoStore_missing]
  dsimp only
  unfold missingUsers
  cases hfind : db.users.find? fun u => u.email = demoEmail with
  | some u =>
    -- there is one, and the emails are distinct
    have hmem : demoEmail ∈ db.users.map User.email :=
      List.mem_map.mpr ⟨u, List.mem_of_find?_eq_some hfind, by simpa using List.find?_some hfind⟩
    have hone := List.count_eq_one_of_mem h.emails hmem
    rw [List.count, List.countP_map] at hone
    rw [List.append_nil, ← hone]
    refine List.countP_congr fun v _ => ?_
    simp
  | none =>
    have hnone : (db.users.countP fun u => u.email = demoEmail) = 0 :=
      List.countP_eq_zero.mpr (List.find?_eq_none.mp hfind)
    rw [List.countP_append, hnone]
    rfl

/-- A start touches no other account. -/
theorem filter_users_createMongoStore (seeds : StartSeeds) :
    ((createMongoStore P catalogue seeds.demoId seeds.salt seeds.now db).users.filter
      fun u => u.email ≠ demoEmail) = db.users.filter fun u => u.email ≠ demoEmail := by
  rw [createMongoStore_missing]
  dsimp only
  unfold missingUsers
  cases db.users.find? fun u => u.email = demoEmail with
  | some u => rw [List.append_nil]
  | none =>
    rw [List.filter_append, List.filter_cons_of_neg (by simp [demoUser, demoEmail]),
      List.filter_nil, List.append_nil]

/-- A start that completes leaves one document for each lesson if and only if it finds the lessons
whole. -/
theorem lessons_createMongoStore_iff (hids : (catalogue.map CoreLesson.id).Nodup)
    (h : Catalogued catalogue db) (seeds : StartSeeds) :
    (∀ c ∈ catalogue,
      ((createMongoStore P catalogue seeds.demoId seeds.salt seeds.now db).lessons.countP
        fun l => l.id = c.id) = 1) ↔ Whole catalogue db := by
  rw [createMongoStore_missing]
  simp only [countP_id_eq, List.map_append, h.lessons]
  unfold missingLessons Whole
  split_ifs with hempty
  -- the start writes the whole catalogue
  · simp only [hempty, true_or, iff_true, List.take_zero, List.map_nil, List.nil_append,
      map_toCoreLesson_seedLessons]
    exact fun c hc => List.count_eq_one_of_mem hids (List.mem_map_of_mem hc)
  -- the start writes nothing, and the lessons it finds are a first part of the catalogue
  · simp only [hempty, false_or, List.map_nil, List.append_nil]
    constructor
    · intro hall
      by_contra hne
      -- the first lesson that is not there
      have hlt : db.lessons.length < catalogue.length := lt_of_le_of_ne h.length_le hne
      have hone := hall _ (List.getElem_mem hlt)
      have hmem := List.count_pos_iff.mp (hone ▸ Nat.one_pos)
      rw [← List.take_append_drop db.lessons.length catalogue, List.map_append] at hids
      refine (List.nodup_append.mp hids).2.2 _ hmem _ ?_ rfl
      refine List.mem_map_of_mem ?_
      rw [List.drop_eq_getElem_cons hlt]
      exact List.mem_cons_self
    · intro hall c hc
      rw [hall, List.take_length]
      exact List.count_eq_one_of_mem hids (List.mem_map_of_mem hc)

/-- A start that completes leaves a seeded database if and only if it finds the lessons whole. -/
theorem seeded_iff (hids : (catalogue.map CoreLesson.id).Nodup) (h : Catalogued catalogue db)
    (seeds : StartSeeds) :
    Seeded catalogue db (createMongoStore P catalogue seeds.demoId seeds.salt seeds.now db) ↔
      Whole catalogue db := by
  rw [← lessons_createMongoStore_iff hids h seeds]
  refine ⟨Seeded.lessons, fun hlessons => ⟨hlessons, ?_, ?_, ?_⟩⟩
  · exact countP_demo_createMongoStore h seeds
  · exact filter_users_createMongoStore seeds
  · rw [createMongoStore_missing]

end Runs

/-- **Every start that completes leaves a seeded database if and only if** no start completes after
one that was killed between its first and its last lesson. -/
theorem seeding_recovers_iff (P : Platform) (M : Mongoose) {catalogue : List CoreLesson}
    (hids : (catalogue.map CoreLesson.id).Nodup) (events : List DatabaseEvent) :
    (∀ past seeds, past ++ [.start seeds] <+: events →
      Seeded catalogue (databaseAfter P M catalogue past)
        (databaseAfter P M catalogue (past ++ [.start seeds]))) ↔
    ∀ past seeds, past ++ [.start seeds] <+: events →
      StepsMeet (databaseStep P M catalogue) (fun db e => ¬ Interrupts catalogue db e)
        emptyDatabase past := by
  -- start by start: a seeded database is left if and only if the run before kept the lessons whole
  refine forall_congr' fun past => forall_congr' fun seeds => imp_congr_right fun _ => ?_
  rw [← whole_databaseAfter, databaseAfter_snoc]
  exact seeded_iff hids (catalogued_databaseAfter past) seeds

/-- A first and a later start of a server. -/
def firstStart : StartSeeds := ⟨"64b000000000000000000000", "salt", 0⟩

def laterStart : StartSeeds := ⟨"64b000000000000000000001", "salt", 60000⟩

/-- A start that is killed after the last lesson, before the demo account, is made good. -/
theorem late_crash_recovered :
    Seeded coreLessons
      (databaseAfter plainPlatform plainMongoose coreLessons [.killed firstStart 6])
      (databaseAfter plainPlatform plainMongoose coreLessons
        [.killed firstStart 6, .start laterStart]) := by
  have hsteps : StepsMeet (databaseStep plainPlatform plainMongoose coreLessons)
      (fun db e => ¬ Interrupts coreLessons db e) emptyDatabase
      [.killed firstStart 6, .start laterStart] := by decide
  apply (seeding_recovers_iff plainPlatform plainMongoose nodup_id_coreLessons
    [.killed firstStart 6, .start laterStart]).mpr
  · intro past seeds hprefix
    exact hsteps.of_prefix ((List.prefix_append _ _).trans hprefix)
  · exact List.prefix_rfl

/-- After a start that is killed after its first lesson, a start that completes leaves the
catalogue incomplete. -/
theorem early_crash_persists :
    ¬ ∀ past seeds, past ++ [.start seeds] <+: [.killed firstStart 1, .start laterStart] →
      Seeded coreLessons (databaseAfter plainPlatform plainMongoose coreLessons past)
        (databaseAfter plainPlatform plainMongoose coreLessons (past ++ [.start seeds])) := by
  intro h
  have hseeded := h [.killed firstStart 1] laterStart List.prefix_rfl
  have hone := hseeded.lessons smallTalk (by simp [coreLessons])
  exact absurd hone (by decide)

end LanguageGuru
