import LanguageGuru.Backend.LessonService

/-!
# Presentations up to timestamps and order

The lesson service shows of a lesson its fields and of a progress record its completion and its
score. Lists of lessons that agree up to order and timestamps, with records that agree on
completion and score, are presented alike up to order and timestamps: exact sums of a track do not
depend on the order of its lessons, and every lesson of a track carries the name of the track. Lists
in the same order are presented alike in any arithmetic.

## Main definitions

* `Lesson.untimed`, `LessonResponse.untimed`, `ProgressResponse.untimed`: without timestamps
* `ProgressRecord.mark`: what is shown of a record
* `Track.unscored`: a track without its sum of scores and their mean

## Main results

* `untimed_toLessonResponse`, `buildTrackStats_perm`, `buildTrackStats_congr`: the presentations of
  such lists agree
-/

namespace LanguageGuru

def Lesson.untimed (l : Lesson) : Lesson := { l with createdAt := 0 }

def LessonResponse.untimed (l : LessonResponse) : LessonResponse := { l with createdAt := 0 }

def ProgressResponse.untimed (p : ProgressResponse) : ProgressResponse := { p with updatedAt := 0 }

/-- The completion and the score of a record. -/
def ProgressRecord.mark (p : ProgressRecord) : Bool × ℚ := (p.completed, p.score)

/-- A track without its sum of scores and their mean. -/
def Track.unscored (t : Track) : Track := { t with averageScore := 0, totalScore := 0 }

/-- Lessons of one track carry one name of it. -/
def NamesTracks (lessons : List Lesson) : Prop :=
  ∀ l ∈ lessons, ∀ l' ∈ lessons, trackKey l = trackKey l' → l.trackName = l'.trackName

theorem Lesson.untimed_eq_iff {l l' : Lesson} :
    l'.untimed = l.untimed ↔ l'.toCoreLesson = l.toCoreLesson ∧ l'.createdBy = l.createdBy := by
  simp [Lesson.untimed]

section Lessons

variable {l l' : Lesson} {lessons lessons' : List Lesson}
  {records records' : String → Option ProgressRecord} {progress progress' : List ProgressRecord}

theorem untimed_toLessonResponse (hl : l'.untimed = l.untimed)
    (hmark : ((progressMap progress').get l.id).map ProgressRecord.mark =
      ((progressMap progress).get l.id).map ProgressRecord.mark) :
    (toLessonResponse l' (progressMap progress')).untimed =
      (toLessonResponse l (progressMap progress)).untimed := by
  obtain ⟨hcore, hby⟩ := Lesson.untimed_eq_iff.mp hl
  have hcompleted : ∀ r r' : Option ProgressRecord,
      r'.map ProgressRecord.mark = r.map ProgressRecord.mark →
      (r'.any fun p => p.completed) = (r.any fun p => p.completed) ∧
        (r'.map fun p => p.score) = r.map fun p => p.score := by
    intro r r' h
    rcases r with _ | p <;> rcases r' with _ | p' <;> simp [ProgressRecord.mark] at h ⊢
    exact h
  obtain ⟨hc, hs⟩ := hcompleted _ _ hmark
  simp only [toLessonResponse, LessonResponse.untimed, hc, hs, hcore, hby]

theorem untimed_lessonResponses_perm
    (h : (lessons'.map Lesson.untimed).Perm (lessons.map Lesson.untimed))
    (hmarks : ∀ id, ((progressMap progress').get id).map ProgressRecord.mark =
      ((progressMap progress).get id).map ProgressRecord.mark) :
    ((lessons'.map fun l => toLessonResponse l (progressMap progress')).map
      LessonResponse.untimed).Perm
      ((lessons.map fun l => toLessonResponse l (progressMap progress)).map
        LessonResponse.untimed) := by
  have hmap : ∀ ls : List Lesson, ∀ ps,
      (∀ id, ((progressMap ps).get id).map ProgressRecord.mark =
        ((progressMap progress).get id).map ProgressRecord.mark) →
      (ls.map fun l => toLessonResponse l (progressMap ps)).map LessonResponse.untimed =
        (ls.map Lesson.untimed).map fun l =>
          (toLessonResponse l (progressMap progress)).untimed := by
    intro ls ps hps
    rw [List.map_map, List.map_map]
    refine List.map_congr_left fun l _ => ?_
    exact untimed_toLessonResponse rfl (hps l.id)
  rw [hmap _ _ hmarks, hmap _ _ fun _ => rfl]
  exact h.map _

/-- The lessons of a track agree up to order and timestamps. -/
theorem trackLessons_perm (h : (lessons'.map Lesson.untimed).Perm (lessons.map Lesson.untimed))
    (key : String) :
    ((trackLessons lessons' key).map Lesson.untimed).Perm
      ((trackLessons lessons key).map Lesson.untimed) := by
  have hfilter : ∀ ls : List Lesson, (trackLessons ls key).map Lesson.untimed =
      (ls.map Lesson.untimed).filter fun l => trackKey l = key := fun ls => by
    rw [List.filter_map]
    rfl
  rw [hfilter, hfilter]
  exact h.filter _

/-- The marks that a list of lessons has agree up to order. -/
theorem marks_perm (h : (lessons'.map Lesson.untimed).Perm (lessons.map Lesson.untimed))
    (hrecords : ∀ id, (records' id).map ProgressRecord.mark =
      (records id).map ProgressRecord.mark) :
    ((lessons'.filterMap fun l => records' l.id).map ProgressRecord.mark).Perm
      ((lessons.filterMap fun l => records l.id).map ProgressRecord.mark) := by
  have hmarks : ∀ (ls : List Lesson) (f : String → Option ProgressRecord),
      (ls.filterMap fun l => f l.id).map ProgressRecord.mark =
        (ls.map Lesson.untimed).filterMap fun l => (f l.id).map ProgressRecord.mark :=
    fun ls f => by
      rw [List.map_filterMap, List.filterMap_map]
      rfl
  rw [hmarks, hmarks]
  simp only [hrecords]
  exact h.filterMap _

/-- The first lessons of a track may differ, but carry the same name. -/
theorem headName_perm (h : (lessons'.map Lesson.untimed).Perm (lessons.map Lesson.untimed))
    (hnames : NamesTracks lessons) (key : String) :
    ((trackLessons lessons' key).head?.map fun l => orElse l.trackName "General") =
      (trackLessons lessons key).head?.map fun l => orElse l.trackName "General" := by
  have hown := trackLessons_perm h key
  have hlength : (trackLessons lessons' key).length = (trackLessons lessons key).length := by
    simpa using hown.length_eq
  cases hhead : (trackLessons lessons key).head? with
  | none =>
    rw [List.head?_eq_none_iff] at hhead
    rw [hhead, List.length_nil, List.length_eq_zero_iff] at hlength
    rw [hlength]
    rfl
  | some l =>
    have hl : l ∈ trackLessons lessons key := List.mem_of_mem_head? hhead
    cases hhead' : (trackLessons lessons' key).head? with
    | none =>
      rw [List.head?_eq_none_iff] at hhead'
      rw [hhead', List.length_nil, eq_comm, List.length_eq_zero_iff] at hlength
      rw [hlength] at hl
      cases hl
    | some l' =>
      -- the lesson `m` at the place of `l'` in the first list names the track as `l` does
      have hl' : l'.untimed ∈ (trackLessons lessons key).map Lesson.untimed :=
        hown.subset (List.mem_map_of_mem (List.mem_of_mem_head? hhead'))
      obtain ⟨m, hm, heq⟩ := List.mem_map.mp hl'
      have hkey : ∀ x ∈ trackLessons lessons key, x ∈ lessons ∧ trackKey x = key := fun x hx =>
        ⟨List.mem_of_mem_filter hx, by simpa using List.of_mem_filter hx⟩
      have hml := hnames m (hkey m hm).1 l (hkey l hl).1
        ((hkey m hm).2.trans (hkey l hl).2.symm)
      have hlm : l'.trackName = m.trackName :=
        (congrArg CoreLesson.trackName (Lesson.untimed_eq_iff.mp heq).1).symm
      rw [Option.map_some, Option.map_some, hlm, hml]

/-- The exact tally of a track does not depend on order and timestamps. -/
theorem tally_perm (h : (lessons'.map Lesson.untimed).Perm (lessons.map Lesson.untimed))
    (hrecords : ∀ id, (records' id).map ProgressRecord.mark =
      (records id).map ProgressRecord.mark) (hnames : NamesTracks lessons) (key : String) :
    tally .exact records' lessons' key = tally .exact records lessons key := by
  have hown := trackLessons_perm h key
  have hmarks := marks_perm hown hrecords
  -- the sums are sums of marks, which the two lists have in another order
  have hsums : ∀ found : List ProgressRecord,
      found.length = (found.map ProgressRecord.mark).length ∧
      (found.countP fun p => p.completed) = (found.map ProgressRecord.mark).countP Prod.fst ∧
      (found.map ProgressRecord.score).sum =
        ((found.map ProgressRecord.mark).map Prod.snd).sum := fun found =>
    ⟨by simp, by rw [List.countP_map]; rfl, by rw [List.map_map]; rfl⟩
  have hlength : (trackLessons lessons' key).length = (trackLessons lessons key).length := by
    simpa using hown.length_eq
  have hname := headName_perm h hnames key
  obtain ⟨hlen, hcount, hsum⟩ := hsums ((trackLessons lessons key).filterMap fun l => records l.id)
  obtain ⟨hlen', hcount', hsum'⟩ :=
    hsums ((trackLessons lessons' key).filterMap fun l => records' l.id)
  have hscored : ((trackLessons lessons' key).filterMap fun l => records' l.id).length =
      ((trackLessons lessons key).filterMap fun l => records l.id).length := by
    rw [hlen, hlen', hmarks.length_eq]
  simp only [tally, Arithmetic.sum_exact, hlength, hname, hscored, hcount, hcount', hsum, hsum',
    hmarks.countP_eq, (hmarks.map Prod.snd).sum_eq]

/-- The exact track statistics do not depend on order and timestamps. -/
theorem buildTrackStats_perm
    (h : (lessons'.map Lesson.untimed).Perm (lessons.map Lesson.untimed))
    (hmarks : ∀ id, ((progressMap progress').get id).map ProgressRecord.mark =
      ((progressMap progress).get id).map ProgressRecord.mark) (hnames : NamesTracks lessons) :
    (buildTrackStats .exact lessons' progress').Perm (buildTrackStats .exact lessons progress) := by
  have hnodup : ∀ ls ps, (buildTrackStats .exact ls ps).Nodup := fun ls ps =>
    (nodup_trackId_buildTrackStats .exact ls ps).of_map _
  have hkeys : ∀ key, key ∈ lessons'.map trackKey ↔ key ∈ lessons.map trackKey := fun key => by
    have hmap : ∀ ls : List Lesson, ls.map trackKey = (ls.map Lesson.untimed).map trackKey :=
      fun ls => by
        rw [List.map_map]
        rfl
    rw [hmap lessons', hmap lessons]
    exact (h.map trackKey).mem_iff
  refine (List.perm_ext_iff_of_nodup (hnodup _ _) (hnodup _ _)).mpr fun t => ?_
  simp only [mem_buildTrackStats, hkeys, tally_perm h hmarks hnames]

/-! ## Lists that agree up to timestamps alone -/

/-- A round of the loop over the lessons reads no timestamp. -/
theorem addLesson_congr (A : Arithmetic) {records records' : OrderedMap String ProgressRecord}
    (hl : l'.untimed = l.untimed)
    (hmark : (records'.get l.id).map ProgressRecord.mark =
      (records.get l.id).map ProgressRecord.mark) (trackMap : OrderedMap String Track) :
    addLesson A records' trackMap l' = addLesson A records trackMap l := by
  obtain ⟨hcore, -⟩ := Lesson.untimed_eq_iff.mp hl
  have hcount : ∀ r r' : Option ProgressRecord,
      r'.map ProgressRecord.mark = r.map ProgressRecord.mark → ∀ track,
        countLesson A r' track = countLesson A r track := by
    intro r r' h track
    rcases r with _ | p <;> rcases r' with _ | p' <;> simp [ProgressRecord.mark] at h ⊢
    simp [countLesson, h]
  simp only [addLesson, trackKey, newTrack, hcore, hcount _ _ hmark]

/-- The track statistics do not depend on timestamps. -/
theorem buildTrackStats_congr (A : Arithmetic)
    (h : lessons'.map Lesson.untimed = lessons.map Lesson.untimed)
    (hmarks : ∀ id, ((progressMap progress').get id).map ProgressRecord.mark =
      ((progressMap progress).get id).map ProgressRecord.mark) :
    buildTrackStats A lessons' progress' = buildTrackStats A lessons progress := by
  have hfold : ∀ trackMap, lessons'.foldl (addLesson A (progressMap progress')) trackMap =
      lessons.foldl (addLesson A (progressMap progress)) trackMap := by
    induction lessons generalizing lessons' with
    | nil =>
      intro trackMap
      rw [List.map_eq_nil_iff.mp h]
      rfl
    | cons l ls ih =>
      intro trackMap
      obtain ⟨l', ls', rfl, hl, hls⟩ := List.map_eq_cons_iff.mp h
      rw [List.foldl_cons, List.foldl_cons, addLesson_congr A hl (hmarks l.id), ih hls]
  rw [buildTrackStats, buildTrackStats, hfold]

end Lessons

end LanguageGuru
