import LanguageGuru.Backend.Content
import LanguageGuru.Backend.MongoStore
import LanguageGuru.Backend.Presentation

/-!
# The relation between the two stores

A memory state and a MongoDB state correspond under a renaming of user ids when their users,
lessons and progress records agree in order up to ids, timestamps and salts. Every operation of the
stores takes corresponding states to corresponding states and answers alike, up to the order of
the lists that MongoDB returns.

## Main definitions

* `Renaming M`: the ids of the memory store, injectively renamed to ids of MongoDB
* `PlatformLaws P`: what the correspondence needs of case folding and password hashing
* `SimilarUser`, `SimilarRecord`, `Similar`: corresponding records and states

## Main results

* `similar_createStore`: the fresh stores correspond
* `Similar.userByEmail`, `Similar.progressOf`, `Similar.writeProgress` and the like: one lemma for
  each operation
-/

namespace LanguageGuru

open List

/-- The ids that occur in a run on the memory store, renamed to ids that MongoDB can cast. -/
structure Renaming (M : Mongoose) where
  ids : Set String
  rename : String → String
  injOn : Set.InjOn rename ids
  isObjectId : ∀ id ∈ ids, M.isObjectId (rename id) = true
  demo : "u_demo" ∈ ids

/-- Case folding is idempotent, leaves the demo email alone and never empties a string; a hash is
not empty, and its salt does not matter for the passwords that it accepts. -/
structure PlatformLaws (P : Platform) : Prop where
  toLowerCase_idem : ∀ s, P.toLowerCase (P.toLowerCase s) = P.toLowerCase s
  toLowerCase_demo : P.toLowerCase "demo@languageguru.app" = "demo@languageguru.app"
  toLowerCase_ne_empty : ∀ s, s ≠ "" → P.toLowerCase s ≠ ""
  hashSync_ne_empty : ∀ password salt, P.hashSync password salt ≠ ""
  compareSync_salt : ∀ q password salt salt',
    P.compareSync q (P.hashSync password salt') = P.compareSync q (P.hashSync password salt)

section Relation

variable (P : Platform) {M : Mongoose} (ρ : Renaming M)

/-- The users agree up to the id, the time of creation and the salt of the hash; the email is in
lower case. -/
structure SimilarUser (u v : User) : Prop where
  mem : u.id ∈ ρ.ids
  id : v.id = ρ.rename u.id
  username : v.username = u.username
  email : v.email = u.email
  lower : P.toLowerCase u.email = u.email
  role : v.role = u.role
  password : ∀ q, P.compareSync q v.passwordHash = P.compareSync q u.passwordHash

/-- The progress records agree up to the id of the user and the time of the write. -/
structure SimilarRecord (p q : ProgressRecord) : Prop where
  mem : p.userId ∈ ρ.ids
  userId : q.userId = ρ.rename p.userId
  lessonId : q.lessonId = p.lessonId
  mark : q.mark = p.mark

/-- The states correspond. Both keep one progress record for each user and lesson. -/
structure Similar (s : MemoryState) (t : MongoState) : Prop where
  users : Forall₂ (SimilarUser P ρ) s.users t.users
  lessons : t.lessons.map Lesson.untimed = s.lessons.map Lesson.untimed
  names : NamesTracks s.lessons
  progress : Forall₂ (SimilarRecord ρ) s.progress t.progress
  keys : (s.progress.map ProgressRecord.key).Nodup
  keys' : (t.progress.map ProgressRecord.key).Nodup

end Relation

variable {P : Platform} {M : Mongoose} {ρ : Renaming M} {s : MemoryState} {t : MongoState}

/-! ## The fresh stores -/

theorem namesTracks_coreLessons (now : Time) : NamesTracks (seedLessons coreLessons now) := by
  intro l hl l' hl' hkey
  obtain ⟨c, hc, rfl⟩ := mem_map.mp hl
  obtain ⟨c', hc', rfl⟩ := mem_map.mp hl'
  exact trackName_coreLessons c hc c' hc' hkey

/-- A fresh memory store and a MongoDB store over an empty database correspond. -/
theorem similar_createStore (hP : PlatformLaws P) (salt salt' : String) (now now' : Time)
    (connected : Bool) :
    Similar P ρ (createMemoryStore P coreLessons salt now)
      (createMongoStore P coreLessons (ρ.rename "u_demo") salt' now' ⟨connected, [], [], []⟩) where
  users := by
    refine .cons ⟨ρ.demo, rfl, rfl, rfl, hP.toLowerCase_demo, rfl, fun q => ?_⟩ .nil
    exact hP.compareSync_salt q "demo1234" salt salt'
  lessons := by
    simp only [createMongoStore, createMemoryStore, seedLessons, length_nil, if_pos, find?_nil,
      map_map]
    rfl
  names := namesTracks_coreLessons now
  progress := .nil
  keys := nodup_nil
  keys' := nodup_nil

/-! ## Users -/

/-- Both stores compare the lower-case email. -/
theorem Similar.userByEmail (h : Similar P ρ s t) (email : String) :
    Option.Rel (SimilarUser P ρ) (s.userByEmail P email) (t.userByEmail P email) := by
  refine Keyed.rel_find? (fun u v huv => ?_) h.users
  rw [huv.lower, huv.email]

theorem SimilarUser.id_iff {u v : User} (huv : SimilarUser P ρ u v) {id : String}
    (hid : id ∈ ρ.ids) : u.id = id ↔ v.id = ρ.rename id := by
  rw [huv.id]
  exact ⟨congrArg _, fun h => ρ.injOn huv.mem hid h⟩

theorem Similar.userById (h : Similar P ρ s t) {id : String} (hid : id ∈ ρ.ids) :
    Option.Rel (SimilarUser P ρ) (s.userById id) (t.userById (ρ.rename id)) :=
  Keyed.rel_lookup (fun _ _ huv => huv.id_iff hid) h.users

theorem Similar.addUser (h : Similar P ρ s t) {u v : User} (huv : SimilarUser P ρ u v) :
    Similar P ρ (s.addUser u) (t.addUser v) :=
  { h with users := rel_append h.users (.cons huv .nil) }

theorem SimilarUser.setRole {u v : User} (huv : SimilarUser P ρ u v) (role : String) :
    SimilarUser P ρ { u with role } { v with role } := { huv with role := rfl }

theorem Similar.setRole (h : Similar P ρ s t) {id : String} (hid : id ∈ ρ.ids) (role : String) :
    Similar P ρ (s.setRole id role) (t.setRole (ρ.rename id) role) :=
  { h with
    users := Keyed.rel_update (fun _ _ huv => huv.id_iff hid)
      (fun _ _ huv _ => huv.setRole role) h.users }

/-! ## Lessons -/

/-- A string filter means the same to both stores. -/
theorem filterSelects_eq {filter : Option QueryValue} (hf : MongoState.IsString filter)
    (field : Option String) : M.filterSelects filter field = !mismatch filter field := by
  cases filter with
  | none => rfl
  | some v =>
    obtain ⟨x, rfl⟩ := hf v rfl
    by_cases hx : x = "" <;> simp [Mongoose.filterSelects, mismatch, hx]

/-- The lessons that string filters select agree up to order and timestamps. -/
theorem Similar.lessonsFor (h : Similar P ρ s t) {f : Filters}
    (htrack : MongoState.IsString f.trackId) (hlanguage : MongoState.IsString f.language)
    (hlevel : MongoState.IsString f.level) :
    ((t.lessonsFor M f).map Lesson.untimed).Perm
      ((s.lessons.filter f.admits).map Lesson.untimed) := by
  have huntimed : ∀ ls : List Lesson, (ls.filter f.admits).map Lesson.untimed =
      (ls.map Lesson.untimed).filter f.admits := fun ls => by
    rw [filter_map]
    rfl
  simp only [MongoState.lessonsFor, filterSelects_eq htrack, filterSelects_eq hlanguage,
    filterSelects_eq hlevel]
  -- the filters read no timestamp, so that they select the same from the untimed lessons
  rw [huntimed, ← h.lessons, ← huntimed]
  exact (M.lessonOrder_perm _).map _

theorem Similar.lessonById (h : Similar P ρ s t) (id : String) :
    (t.lessonById id).map Lesson.untimed = (s.lessonById id).map Lesson.untimed := by
  have huntimed : ∀ ls : List Lesson, (ls.find? fun l => l.id = id).map Lesson.untimed =
      (ls.map Lesson.untimed).find? fun l => l.id = id := fun ls => by
    rw [find?_map]
    rfl
  rw [MongoState.lessonById, MemoryState.lessonById, huntimed, huntimed, h.lessons]

/-! ## Progress -/

/-- The records of a user, up to the order in which MongoDB returns them. -/
theorem Similar.recordsOf (h : Similar P ρ s t) {id : String} (hid : id ∈ ρ.ids) :
    Forall₂ (SimilarRecord ρ) (s.progressOf id)
      (t.progress.filter fun p => p.userId = ρ.rename id) := by
  refine rel_filter (fun p q hpq => ?_) h.progress
  simp only [decide_eq_true_eq]
  rw [hpq.userId]
  exact ⟨congrArg _, fun heq => ρ.injOn hpq.mem hid heq⟩

/-- A user has one record at most for each lesson. -/
theorem nodup_lessonId {progress : List ProgressRecord}
    (hn : (progress.map ProgressRecord.key).Nodup) (id : String) :
    ((progress.filter fun p => p.userId = id).map ProgressRecord.lessonId).Nodup := by
  have hkeys : ((progress.filter fun p => p.userId = id).map ProgressRecord.key).Nodup :=
    hn.sublist (filter_sublist.map _)
  -- within the records of one user the key is the lesson, up to the constant user
  have hpairs : (progress.filter fun p => p.userId = id).map ProgressRecord.key =
      ((progress.filter fun p => p.userId = id).map ProgressRecord.lessonId).map fun l =>
        (id, l) := by
    rw [map_map]
    refine map_congr_left fun p hp => ?_
    have hid : p.userId = id := by simpa using of_mem_filter hp
    simp [ProgressRecord.key, hid]
  rw [hpairs] at hkeys
  exact hkeys.of_map _

/-- The progress maps of a user show the same marks. -/
theorem Similar.marks (h : Similar P ρ s t) {id : String} (hid : id ∈ ρ.ids)
    (lessonId : String) :
    ((progressMap (t.progressOf M (ρ.rename id))).get lessonId).map ProgressRecord.mark =
      ((progressMap (s.progressOf id)).get lessonId).map ProgressRecord.mark := by
  have hperm := M.progressOrder_perm (t.progress.filter fun p => p.userId = ρ.rename id)
  have hn := nodup_lessonId h.keys id
  have hn' := nodup_lessonId h.keys' (ρ.rename id)
  -- with one record for each lesson, the map holds what a lookup in the list finds
  have hlookup : ∀ x y, Option.Rel (SimilarRecord ρ) x y →
      y.map ProgressRecord.mark = x.map ProgressRecord.mark := by
    rintro _ _ (⟨hpq⟩ | _)
    · exact congrArg some hpq.mark
    · rfl
  rw [MongoState.progressOf, MemoryState.progressOf, get_progressMap hn,
    get_progressMap ((hperm.map _).nodup_iff.mpr hn'),
    Keyed.lookup_perm hperm ((hperm.map _).nodup_iff.mpr hn')]
  exact hlookup _ _ (Keyed.rel_lookup (fun _ _ hpq => by rw [hpq.lessonId]) (h.recordsOf hid))

/-- The progress lists of a user agree up to order and timestamps. -/
theorem Similar.formatProgress (h : Similar P ρ s t) {id : String} (hid : id ∈ ρ.ids) :
    ((formatProgress (t.progressOf M (ρ.rename id))).map ProgressResponse.untimed).Perm
      ((formatProgress (s.progressOf id)).map ProgressResponse.untimed) := by
  have hsame : ∀ ps qs, Forall₂ (SimilarRecord ρ) ps qs →
      (LanguageGuru.formatProgress qs).map ProgressResponse.untimed =
        (LanguageGuru.formatProgress ps).map ProgressResponse.untimed := by
    intro ps qs hpqs
    induction hpqs with
    | nil => rfl
    | @cons p q ps qs hpq _ ih =>
      obtain ⟨hcompleted, hscore⟩ := Prod.mk.inj hpq.mark
      simp only [LanguageGuru.formatProgress, map_cons, cons.injEq] at ih ⊢
      exact ⟨by simp [ProgressResponse.untimed, hpq.lessonId, hcompleted, hscore], ih⟩
  -- MongoDB lists the records in another order
  rw [← hsame _ _ (h.recordsOf hid)]
  exact ((M.progressOrder_perm _).map _).map _

theorem Similar.writeProgress (h : Similar P ρ s t) {w w' : ProgressWrite}
    (hid : w.userId ∈ ρ.ids) (huser : w'.userId = ρ.rename w.userId)
    (hlesson : w'.lessonId = w.lessonId) (hcompleted : w'.completed = w.completed)
    (hscore : w'.score = w.score) (now now' : Time) :
    Similar P ρ (s.writeProgress w now) (t.writeProgress w' now') where
  users := h.users
  lessons := h.lessons
  names := h.names
  progress := by
    refine Keyed.rel_upsert (fun p q hpq => ?_) (fun p q hpq _ => ?_) ?_ h.progress
    · simp only [ProgressRecord.key, ProgressWrite.key, Prod.mk.injEq, hpq.userId, hpq.lessonId,
        huser, hlesson]
      exact and_congr_left fun _ => ⟨congrArg _, fun heq => ρ.injOn hpq.mem hid heq⟩
    · exact ⟨hpq.mem, hpq.userId, hpq.lessonId, by
        simp [ProgressRecord.mark, ProgressWrite.overwrite, hcompleted, hscore]⟩
    · exact ⟨hid, huser, hlesson, by
        simp [ProgressRecord.mark, ProgressWrite.record, hcompleted, hscore]⟩
  keys := by
    refine Keyed.nodup_keys_upsert ?_ ?_ h.keys
    exacts [fun _ hk => hk, rfl]
  keys' := by
    refine Keyed.nodup_keys_upsert ?_ ?_ h.keys'
    exacts [fun _ hk => hk, rfl]

end LanguageGuru
