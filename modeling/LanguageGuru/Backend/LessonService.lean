import LanguageGuru.Backend.Http
import LanguageGuru.Data.Doubles
import LanguageGuru.Data.OrderedMap
import Mathlib.Data.Rat.Floor

/-!
# The lesson service

How the learning routes present lessons, track statistics and progress. The statistics are computed
in an arithmetic that is given, that of doubles in the routes.

## Main definitions

* `toLessonResponse`, `buildTrackStats`, `formatProgress`
* `progressMap`: the map from lesson ids to progress records that the routes build
* `tally`: the counters of a track as sums over its lessons

## Main results

* `get_progressMap`: the map holds the record of a lesson when a lesson has one record at most
* `mem_buildTrackStats`, `nodup_trackId_buildTrackStats`: the track statistics have one entry for
  each track, with the sums over its lessons
-/

namespace LanguageGuru

/-- `Math.round`: ties are rounded up. -/
def mathRound (q : ℚ) : ℤ := ⌊q + 1 / 2⌋

/-- `new Map(progress.map((p) => [p.lessonId, p]))`. -/
def progressMap (progress : List ProgressRecord) : OrderedMap String ProgressRecord :=
  OrderedMap.ofList (progress.map fun p => (p.lessonId, p))

def toLessonResponse (lesson : Lesson) (userProgressMap : OrderedMap String ProgressRecord) :
    LessonResponse :=
  let progressRecord := userProgressMap.get lesson.id
  { lesson with
    completed := progressRecord.any fun p => p.completed
    score := progressRecord.map fun p => p.score }

/-- The key of a lesson's track. -/
def trackKey (lesson : Lesson) : String := orElse lesson.trackId "general"

/-- The entry that is started at the first lesson of a track. -/
def newTrack (lesson : Lesson) : Track :=
  { trackId := trackKey lesson
    trackName := orElse lesson.trackName "General"
    totalLessons := 0
    completedLessons := 0
    averageScore := 0
    totalScore := 0
    scoredCount := 0 }

section Statistics

variable (A : Arithmetic)

/-- The counters of a track after one more lesson. A stored score is always a number. -/
def countLesson (progressRecord : Option ProgressRecord) (current : Track) : Track :=
  let current := { current with totalLessons := current.totalLessons + 1 }
  match progressRecord with
  | none => current
  | some p =>
    { current with
      completedLessons := current.completedLessons + if p.completed then 1 else 0
      totalScore := A.add current.totalScore p.score
      scoredCount := current.scoredCount + 1 }

/-- One round of the loop over the lessons. -/
def addLesson (records : OrderedMap String ProgressRecord) (trackMap : OrderedMap String Track)
    (lesson : Lesson) : OrderedMap String Track :=
  let key := trackKey lesson
  let current := (trackMap.get key).getD (newTrack lesson)
  trackMap.set key (countLesson A (records.get lesson.id) current)

def withAverage (track : Track) : Track :=
  { track with
    averageScore :=
      if track.scoredCount > 0 then mathRound (A.div track.totalScore track.scoredCount) else 0 }

def buildTrackStats (lessons : List Lesson) (progress : List ProgressRecord) : List Track :=
  (lessons.foldl (addLesson A (progressMap progress)) OrderedMap.empty).values.map (withAverage A)

end Statistics

/-! ## The map of the records -/

/-- The map holds the last record of each lesson. -/
theorem get_progressMap_eq_last (progress : List ProgressRecord) (lessonId : String) :
    (progressMap progress).get lessonId =
      Keyed.lookup ProgressRecord.lessonId lessonId progress.reverse := by
  have hpairs : ∀ xs : List ProgressRecord,
      (Keyed.lookup Prod.fst lessonId (xs.map fun p => (p.lessonId, p))).map Prod.snd =
        Keyed.lookup ProgressRecord.lessonId lessonId xs := by
    intro xs
    induction xs with
    | nil => rfl
    | cons x xs ih =>
      rw [List.map_cons, Keyed.lookup_cons, Keyed.lookup_cons, ← ih]
      split_ifs <;> rfl
  rw [progressMap, OrderedMap.get_ofList, ← List.map_reverse, hpairs]

/-- A list in which a lesson has one record at most is the map of its records. -/
theorem get_progressMap {progress : List ProgressRecord}
    (hn : (progress.map ProgressRecord.lessonId).Nodup) (lessonId : String) :
    (progressMap progress).get lessonId =
      Keyed.lookup ProgressRecord.lessonId lessonId progress := by
  rw [get_progressMap_eq_last, Keyed.lookup_perm (List.reverse_perm progress)]
  exact (List.reverse_perm progress).map _ |>.nodup_iff.mpr hn

/-! ## The sums of a track -/

section Tally

variable (A : Arithmetic) (records : String → Option ProgressRecord)

/-- The lessons of a track. -/
def trackLessons (lessons : List Lesson) (key : String) : List Lesson :=
  lessons.filter fun l => trackKey l = key

/-- The counters of a track as sums over its lessons; its first lesson names it. -/
def tally (lessons : List Lesson) (key : String) : Track :=
  let own := trackLessons lessons key
  let found := own.filterMap fun l => records l.id
  { trackId := key
    trackName := (own.head?.map fun l => orElse l.trackName "General").getD "General"
    totalLessons := own.length
    completedLessons := found.countP fun p => p.completed
    averageScore := 0
    totalScore := A.sum (found.map ProgressRecord.score)
    scoredCount := found.length }

theorem trackLessons_snoc_self (lessons : List Lesson) (l : Lesson) :
    trackLessons (lessons ++ [l]) (trackKey l) = trackLessons lessons (trackKey l) ++ [l] := by
  simp [trackLessons]

theorem trackLessons_snoc_other (lessons : List Lesson) {l : Lesson} {key : String}
    (h : trackKey l ≠ key) : trackLessons (lessons ++ [l]) key = trackLessons lessons key := by
  simp [trackLessons, h]

theorem trackLessons_ne_nil {lessons : List Lesson} {key : String} :
    trackLessons lessons key ≠ [] ↔ key ∈ lessons.map trackKey := by
  simp [trackLessons, List.filter_eq_nil_iff]

/-- One more lesson of a track adds what it counts for. -/
theorem tally_snoc_self (lessons : List Lesson) (l : Lesson) :
    tally A records (lessons ++ [l]) (trackKey l) =
      countLesson A (records l.id)
        (if trackKey l ∈ lessons.map trackKey then tally A records lessons (trackKey l)
          else newTrack l) := by
  by_cases hk : trackKey l ∈ lessons.map trackKey
  · -- the track has a first lesson already, which keeps naming it
    obtain ⟨x, hx⟩ : ∃ x, (trackLessons lessons (trackKey l)).head? = some x :=
      ⟨_, List.head?_eq_some_head (trackLessons_ne_nil.mpr hk)⟩
    rw [if_pos hk]
    cases hr : records l.id <;>
      simp [tally, countLesson, trackLessons_snoc_self, List.head?_append, hx, hr,
        List.countP_cons]
  · have hown : trackLessons lessons (trackKey l) = [] := by
      by_contra hne
      exact hk (trackLessons_ne_nil.mp hne)
    rw [if_neg hk]
    cases hr : records l.id <;>
      simp [tally, countLesson, newTrack, trackLessons_snoc_self, hown, hr]

/-- The loop over the lessons leaves the tally of every track that has a lesson. -/
theorem get_foldl_addLesson (m : OrderedMap String ProgressRecord) (lessons : List Lesson)
    (key : String) :
    (lessons.foldl (addLesson A m) OrderedMap.empty).get key =
      if key ∈ lessons.map trackKey then some (tally A m.get lessons key) else none := by
  -- on the last lesson, since the loop sets entries in order
  induction lessons using List.reverseRecOn with
  | nil => rfl
  | append_singleton lessons l ih =>
    rw [List.foldl_append, List.foldl_cons, List.foldl_nil, addLesson, OrderedMap.get_set]
    by_cases h : key = trackKey l
    · subst h
      have hmem : trackKey l ∈ (lessons ++ [l]).map trackKey := by simp
      rw [if_pos rfl, if_pos hmem, tally_snoc_self, ih]
      split_ifs <;> rfl
    · have hother : key ∈ (lessons ++ [l]).map trackKey ↔ key ∈ lessons.map trackKey := by
        simp [h]
      rw [if_neg h, ih, tally, tally, trackLessons_snoc_other lessons (Ne.symm h)]
      simp only [hother]

/-- Every entry of the loop is stored under its track. -/
theorem trackId_eq_of_mem {m : OrderedMap String ProgressRecord} {lessons : List Lesson}
    {e : String × Track} (he : e ∈ (lessons.foldl (addLesson A m) OrderedMap.empty).entries) :
    e.1 ∈ lessons.map trackKey ∧ e.2 = tally A m.get lessons e.1 := by
  have hget := OrderedMap.get_of_mem he
  rw [get_foldl_addLesson] at hget
  split_ifs at hget with hmem
  exact ⟨hmem, (Option.some.inj hget).symm⟩

end Tally

/-- The entries of the track statistics are the tallies of the tracks that have a lesson. -/
theorem mem_buildTrackStats {A : Arithmetic} {lessons : List Lesson}
    {progress : List ProgressRecord} {t : Track} :
    t ∈ buildTrackStats A lessons progress ↔
      ∃ key ∈ lessons.map trackKey,
        t = withAverage A (tally A (progressMap progress).get lessons key) := by
  rw [buildTrackStats, List.mem_map]
  constructor
  · rintro ⟨t, ht, rfl⟩
    obtain ⟨e, he, rfl⟩ := List.mem_map.mp ht
    obtain ⟨hmem, heq⟩ := trackId_eq_of_mem A he
    exact ⟨e.1, hmem, by rw [heq]⟩
  · rintro ⟨key, hmem, rfl⟩
    have hget := get_foldl_addLesson A (progressMap progress) lessons key
    rw [if_pos hmem] at hget
    exact ⟨_, OrderedMap.mem_values_of_get hget, rfl⟩

/-- The track statistics have one entry for each track. -/
theorem nodup_trackId_buildTrackStats (A : Arithmetic) (lessons : List Lesson)
    (progress : List ProgressRecord) :
    ((buildTrackStats A lessons progress).map Track.trackId).Nodup := by
  have hids : (buildTrackStats A lessons progress).map Track.trackId =
      (lessons.foldl (addLesson A (progressMap progress)) OrderedMap.empty).keys := by
    rw [buildTrackStats, OrderedMap.values, List.map_map, List.map_map, OrderedMap.keys]
    refine List.map_congr_left fun e he => ?_
    exact congrArg Track.trackId (trackId_eq_of_mem A he).2
  rw [hids]
  exact OrderedMap.nodup _

def formatProgress (progress : List ProgressRecord) : List ProgressResponse :=
  progress.map fun p => ⟨p.lessonId, p.completed, p.score, p.updatedAt⟩

end LanguageGuru
