import LanguageGuru.Backend.Authentication

/-!
# Progress and its views

A user has one progress record at most for a lesson, and every learning route that shows progress
reports what this record says.

## Main definitions

* `ProgressInv`: one record for a user and a lesson, both existing, with a score between 0 and 100
* `MemoryState.report`: what the records say about a user and a lesson
* `Reports`: the learning routes all report it

## Main results

* `progressInv_after`: requests executed one after another keep the invariant
* `reports_of_progressInv`: every learning route reports what the records say
-/

namespace LanguageGuru

open Process

/-! ## One record for a user and a lesson -/

/-- A user and a lesson have one progress record at most; both exist, and the score is between 0
and 100. -/
structure ProgressInv (s : MemoryState) : Prop where
  keys : (s.progress.map ProgressRecord.key).Nodup
  users : ∀ p ∈ s.progress, p.userId ∈ s.users.map User.id
  lessons : ∀ p ∈ s.progress, ∃ l ∈ s.lessons, l.id = p.lessonId
  scores : ∀ p ∈ s.progress, 0 ≤ p.score ∧ p.score ≤ 100

section Invariant

variable {P : Platform} {cfg : Config} {s : MemoryState}

theorem key_record (w : ProgressWrite) (now : Time) : (w.record now).key = w.key := rfl

/-- Overwriting the record of a key leaves what a first write leaves. -/
theorem overwrite_eq_record {w : ProgressWrite} {now : Time} {p : ProgressRecord}
    (h : p.key = w.key) : w.overwrite now p = w.record now := by
  simp only [ProgressRecord.key, ProgressWrite.key, Prod.mk.injEq] at h
  simp [ProgressWrite.overwrite, ProgressWrite.record, h.1, h.2]

theorem progressInv_createMemoryStore {catalogue : List CoreLesson} {salt : String} {now : Time} :
    ProgressInv (createMemoryStore P catalogue salt now) := by
  constructor <;> simp [createMemoryStore]

/-- New users and other changes of the users do not matter. -/
theorem progressInv_of_prefix {s' : MemoryState} (h : ProgressInv s)
    (hids : s.users.map User.id <+: s'.users.map User.id) (hlessons : s'.lessons = s.lessons)
    (hp : s'.progress = s.progress) : ProgressInv s' := by
  refine ⟨hp ▸ h.keys, fun p hmem => ?_, fun p hmem => ?_, fun p hmem => ?_⟩
  · exact hids.subset (h.users p (hp ▸ hmem))
  · rw [hlessons]
    exact h.lessons p (hp ▸ hmem)
  · exact h.scores p (hp ▸ hmem)

theorem progressInv_writeProgress (h : ProgressInv s) {w : ProgressWrite} {now : Time}
    (hu : w.userId ∈ s.users.map User.id) (hl : ∃ l ∈ s.lessons, l.id = w.lessonId)
    (hscore : 0 ≤ w.score ∧ w.score ≤ 100) : ProgressInv (s.writeProgress w now) := by
  have hover : ∀ p : ProgressRecord, p.key = w.key → (w.overwrite now p).key = w.key :=
    fun p hp => hp
  -- every record of the list is an old one, or the record of the write
  have hcases : ∀ p ∈ (s.writeProgress w now).progress, p ∈ s.progress ∨ p = w.record now := by
    intro p hp
    rcases Keyed.mem_upsert hp with hp | ⟨q, -, hq, rfl⟩ | rfl
    · exact .inl hp
    · exact .inr (overwrite_eq_record hq)
    · exact .inr rfl
  refine ⟨Keyed.nodup_keys_upsert hover (key_record w now) h.keys, fun p hp => ?_,
    fun p hp => ?_, fun p hp => ?_⟩
  · rcases hcases p hp with hp | rfl
    · exact h.users p hp
    · exact hu
  · rcases hcases p hp with hp | rfl
    · exact h.lessons p hp
    · exact hl
  · rcases hcases p hp with hp | rfl
    · exact h.scores p hp
    · exact hscore

/-- The score that a submission writes is between 0 and 100. -/
theorem progressWrite_score (user : User) (value : ProgressValue) :
    0 ≤ (progressWrite user value).score ∧ (progressWrite user value).score ≤ 100 :=
  ⟨le_max_left _ _, max_le (by norm_num) (min_le_left _ _)⟩

theorem progressInv_next (P : Platform) (cfg : Config) (h : ProgressInv s) (req : Request) :
    ProgressInv (s.next P cfg req) := by
  have hids := ids_after P cfg s [req]
  rcases next_cases P cfg s req with
    hn | ⟨value, -, hn⟩ | ⟨value, user, -, hn⟩ | ⟨value, user, hw, hn⟩
  · rwa [hn]
  · rw [MemoryState.after_cons, MemoryState.after_nil, hn] at hids
    exact hn ▸ progressInv_of_prefix h hids rfl rfl
  · rw [MemoryState.after_cons, MemoryState.after_nil, hn] at hids
    exact hn ▸ progressInv_of_prefix h hids rfl rfl
  · -- the user was found under the subject of the token, and the lesson under its id
    obtain ⟨body, -, -, hi, -, hl⟩ := hw
    obtain ⟨token, payload, -, -, hu⟩ := of_identify_eq_ok hi
    obtain ⟨l, hfound⟩ := Option.isSome_iff_exists.mp hl
    rw [hn]
    refine progressInv_writeProgress h ?_ ⟨l, ?_, ?_⟩ (progressWrite_score user value)
    · exact List.mem_map_of_mem (List.mem_of_find?_eq_some hu)
    · exact List.mem_of_find?_eq_some hfound
    · have hid : l.id = value.lessonId := by simpa using List.find?_some hfound
      exact hid

/-- **A run keeps one record for a user and a lesson.** -/
theorem progressInv_after (P : Platform) (cfg : Config) (h : ProgressInv s) (reqs : List Request) :
    ProgressInv (s.after P cfg reqs) :=
  run_invariant (I := ProgressInv) (fun _ req hs => progressInv_next P cfg hs req) h reqs

end Invariant

/-! ## The views -/

/-- What a view reports for a lesson with this record, or without one. -/
def reportOf (record : Option ProgressRecord) : Bool × Option ℚ :=
  (record.any fun p => p.completed, record.map fun p => p.score)

/-- The request reaches the route `e` for the user `user`. -/
def MemoryState.Asks (P : Platform) (cfg : Config) (s : MemoryState) (req : Request) (e : Endpoint)
    (user : User) : Prop :=
  (∃ body, req.payload = .parsed body) ∧ req.endpoint = some e ∧ s.identify P cfg req = .ok user

/-- In the state `s` the learning routes all report `report` to the user `user`. -/
structure Reports (P : Platform) (cfg : Config) (s : MemoryState) (user : User)
    (report : String → Bool × Option ℚ) : Prop where
  /-- `GET /progress` lists a lesson once when it has a score, and not at all otherwise. -/
  progress : ∀ req, s.Asks P cfg req .progress user → ∃ list,
    s.respond P cfg req = [⟨200, .progress list⟩] ∧
      (list.map ProgressResponse.lessonId).Nodup ∧
      ∀ lessonId, (Keyed.lookup ProgressResponse.lessonId lessonId list).map
          (fun p => (p.completed, some p.score)) =
        if (report lessonId).2 = none then none else some (report lessonId)
  /-- `GET /lessons` lists the lessons that the query admits. -/
  lessons : ∀ req, s.Asks P cfg req .lessons user → ∃ list,
    s.respond P cfg req = [⟨200, .lessons list⟩] ∧
      list.map LessonResponse.toLesson = s.lessons.filter req.query.admits ∧
      ∀ l ∈ list, (l.completed, l.score) = report l.id
  lesson : ∀ req, ∀ l ∈ s.lessons, s.Asks P cfg req (.lesson (some l.id)) user → ∃ r,
    s.respond P cfg req = [⟨200, .lesson r⟩] ∧ r.id = l.id ∧ (r.completed, r.score) = report l.id
  /-- `GET /tracks` sums what is reported for the lessons of each track, in doubles and in the order
  of the lessons. -/
  tracks : ∀ req, s.Asks P cfg req .tracks user → ∃ list,
    s.respond P cfg req = [⟨200, .tracks list⟩] ∧ (list.map Track.trackId).Nodup ∧
      (∀ key, key ∈ list.map Track.trackId ↔ key ∈ s.lessons.map trackKey) ∧
      ∀ t ∈ list,
        let own := trackLessons s.lessons t.trackId
        let scores := own.filterMap fun l => (report l.id).2
        t.totalLessons = own.length ∧ t.completedLessons = own.countP (fun l => (report l.id).1) ∧
          t.totalScore = Arithmetic.double.sum scores ∧ t.scoredCount = scores.length ∧
          t.averageScore =
            if 0 < scores.length then
              mathRound (Arithmetic.double.div (Arithmetic.double.sum scores) scores.length)
            else 0

section Views

variable {P : Platform} {cfg : Config} {s : MemoryState} {user : User} {req : Request}

/-- The record of a lesson among the records of a user. -/
theorem lookup_progressOf (hs : ProgressInv s) (userId lessonId : String) :
    ((s.progressOf userId).map ProgressRecord.lessonId).Nodup ∧
      Keyed.lookup ProgressRecord.lessonId lessonId (s.progressOf userId) =
        Keyed.lookup ProgressRecord.key (userId, lessonId) s.progress := by
  have hown : ∀ p ∈ s.progressOf userId, p.userId = userId := fun p hp => by
    simpa using List.of_mem_filter hp
  have hkeys : ((s.progressOf userId).map ProgressRecord.key).Nodup :=
    hs.keys.sublist (List.filter_sublist.map _)
  -- two records of one user and one lesson share their key
  have hnodup : ((s.progressOf userId).map ProgressRecord.lessonId).Nodup := by
    refine (List.nodup_map_iff_inj_on (List.Nodup.of_map _ hkeys)).mpr fun p hp q hq he => ?_
    refine Keyed.eq_of_mem_of_key hkeys hp hq (Prod.ext ?_ he)
    exact (hown p hp).trans (hown q hq).symm
  refine ⟨hnodup, Option.ext fun p => ?_⟩
  rw [Keyed.lookup_eq_some_iff hnodup, Keyed.lookup_eq_some_iff hs.keys]
  constructor
  · rintro ⟨hp, rfl⟩
    exact ⟨List.mem_of_mem_filter hp, Prod.ext (hown p hp) rfl⟩
  · rintro ⟨hp, hk⟩
    simp only [ProgressRecord.key, Prod.mk.injEq] at hk
    exact ⟨List.mem_filter.mpr ⟨hp, by simpa using hk.1⟩, hk.2⟩

/-- The map that the routes build holds the record of every lesson. -/
theorem get_progressMap_progressOf (hs : ProgressInv s) (userId lessonId : String) :
    (progressMap (s.progressOf userId)).get lessonId =
      Keyed.lookup ProgressRecord.key (userId, lessonId) s.progress := by
  obtain ⟨hnodup, hlookup⟩ := lookup_progressOf hs userId lessonId
  rw [get_progressMap hnodup, hlookup]

/-- What the state says about the lessons of a user. -/
abbrev MemoryState.report (s : MemoryState) (user : User) (lessonId : String) : Bool × Option ℚ :=
  reportOf (Keyed.lookup ProgressRecord.key (user.id, lessonId) s.progress)

theorem toLessonResponse_reports (hs : ProgressInv s) (l : Lesson) :
    let r := toLessonResponse l (progressMap (s.progressOf user.id))
    (r.completed, r.score) = s.report user l.id := by
  simp only [toLessonResponse, get_progressMap_progressOf hs, reportOf]

theorem lookup_formatProgress (records : List ProgressRecord) (lessonId : String) :
    (Keyed.lookup ProgressResponse.lessonId lessonId (formatProgress records)).map
        (fun p => (p.completed, some p.score)) =
      (Keyed.lookup ProgressRecord.lessonId lessonId records).map
        fun p => (p.completed, some p.score) := by
  induction records with
  | nil => rfl
  | cons p records ih =>
    rw [formatProgress, List.map_cons, ← formatProgress, Keyed.lookup_cons, Keyed.lookup_cons]
    split_ifs
    · rfl
    · exact ih

/-- The sums of a track are the sums of what is reported for its lessons. -/
theorem tally_reports (records : String → Option ProgressRecord) (lessons : List Lesson)
    (key : String) :
    let own := trackLessons lessons key
    let scores := own.filterMap fun l => (reportOf (records l.id)).2
    let t := tally .double records lessons key
    t.totalLessons = own.length ∧
      t.completedLessons = own.countP (fun l => (reportOf (records l.id)).1) ∧
      t.totalScore = Arithmetic.double.sum scores ∧ t.scoredCount = scores.length := by
  intro own scores t
  have hscores : scores = (own.filterMap fun l => records l.id).map ProgressRecord.score := by
    simp only [scores, reportOf, List.map_filterMap]
  have hcompleted : own.countP (fun l => (reportOf (records l.id)).1) =
      (own.filterMap fun l => records l.id).countP fun p => p.completed := by
    rw [List.countP_filterMap]
    refine List.countP_congr fun l _ => ?_
    cases records l.id <;> simp [reportOf]
  refine ⟨rfl, hcompleted.symm, ?_, ?_⟩
  · rw [hscores]
    rfl
  · rw [hscores, List.length_map]
    rfl

/-- A request of the user is answered by the handler behind the authentication middleware. -/
theorem MemoryState.Asks.respond {e : Endpoint} (next : User → Handler)
    (h : s.Asks P cfg req e user)
    (hroute : ∀ body, routers P cfg "memory" req body = authMiddleware P cfg req next) :
    s.respond P cfg req = ((next user).exec (memoryStore P) s).sent := by
  obtain ⟨⟨body, hp⟩, -, hi⟩ := h
  simp only [MemoryState.respond, serve, hp, hroute, exec_authMiddleware, hi]

/-- **Every learning route reports what the state says.** -/
theorem reports_of_progressInv (hs : ProgressInv s) (user : User) :
    Reports P cfg s user (s.report user) := by
  constructor
  case progress =>
    intro req h
    have hr := h.respond progress fun body => by simp only [routers, h.2.1]
    rw [exec_progress] at hr
    refine ⟨_, hr, ?_, fun lessonId => ?_⟩
    · have hids : (formatProgress (s.progressOf user.id)).map ProgressResponse.lessonId =
          (s.progressOf user.id).map ProgressRecord.lessonId := by
        simp [formatProgress, Function.comp_def]
      rw [hids]
      exact (lookup_progressOf hs user.id "").1
    · rw [lookup_formatProgress, (lookup_progressOf hs user.id lessonId).2]
      cases hl : Keyed.lookup ProgressRecord.key (user.id, lessonId) s.progress <;>
        simp [MemoryState.report, reportOf, hl]
  case lessons =>
    intro req h
    have hr := h.respond (LanguageGuru.lessons req) fun body => by simp only [routers, h.2.1]
    rw [exec_lessons] at hr
    refine ⟨_, hr, ?_, fun l hl => ?_⟩
    · rw [List.map_map]
      exact List.map_id _
    · obtain ⟨lesson, -, rfl⟩ := List.mem_map.mp hl
      exact toLessonResponse_reports hs lesson
  case lesson =>
    intro req l hl h
    have hr := h.respond (lessonById l.id) fun body => by simp only [routers, h.2.1]
    rw [exec_lessonById] at hr
    -- the lesson that is found is the first with the id, and has it as `l` does
    obtain ⟨l', hl'⟩ : ∃ l', s.lessonById l.id = some l' := by
      rw [← Option.isSome_iff_exists, MemoryState.lessonById, List.find?_isSome]
      exact ⟨l, hl, by simp⟩
    have hid : l'.id = l.id := by simpa using List.find?_some hl'
    rw [hl'] at hr
    refine ⟨_, hr, hid, ?_⟩
    rw [← hid]
    exact toLessonResponse_reports hs l'
  case tracks =>
    intro req h
    have hr := h.respond LanguageGuru.tracks fun body => by simp only [routers, h.2.1]
    rw [exec_tracks] at hr
    refine ⟨_, hr, nodup_trackId_buildTrackStats _ _ _, fun key => ?_, fun t ht => ?_⟩
    · simp only [List.mem_map, mem_buildTrackStats]
      constructor
      · rintro ⟨t, ⟨key, hkey, rfl⟩, rfl⟩
        exact hkey
      · rintro hkey
        exact ⟨_, ⟨key, hkey, rfl⟩, rfl⟩
    · obtain ⟨key, -, rfl⟩ := mem_buildTrackStats.mp ht
      have hget : (progressMap (s.progressOf user.id)).get =
          fun lessonId => Keyed.lookup ProgressRecord.key (user.id, lessonId) s.progress :=
        funext fun lessonId => get_progressMap_progressOf hs user.id lessonId
      obtain ⟨h₁, h₂, h₃, h₄⟩ := tally_reports
        (fun lessonId => Keyed.lookup ProgressRecord.key (user.id, lessonId) s.progress) s.lessons
        key
      rw [hget]
      refine ⟨h₁, h₂, h₃, h₄, ?_⟩
      simp only [withAverage, h₃, h₄]
      rfl

end Views

end LanguageGuru
