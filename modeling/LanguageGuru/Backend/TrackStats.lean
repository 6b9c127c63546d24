import LanguageGuru.Backend.Presentation
import Mathlib.Algebra.BigOperators.Group.List.Lemmas
import Mathlib.Tactic.Linarith

/-!
# Track statistics

What `buildTrackStats` means: one entry for each track in the order of their first lessons, with
counts of lessons and rounded means of scores, which do not depend on the order of the progress. The
means are exact ones; for scores that are whole numbers, doubles give the same statistics.

## Main definitions

* `lastRecord`, `trackRecords`: the record that counts for a lesson, and those of a track
* `IsRoundHalfUp`: rounding to the nearest integer, ties upwards
* `TrackSpec`: what an entry says about the lessons and the records of its track
* `WholeScores`: scores that are whole numbers

## Main results

* `trackId_buildTrackStats`: the entries come in the order of first appearance
* `trackSpec_of_mem`: each entry meets `TrackSpec`
* `buildTrackStats_double`: the statistics of whole scores are the same in doubles
* `buildTrackStats_spec`: the specification as a whole
-/

namespace LanguageGuru

/-- The last progress record of a lesson. -/
def lastRecord (progress : List ProgressRecord) (lessonId : String) : Option ProgressRecord :=
  (progress.filter fun p => p.lessonId = lessonId).getLast?

/-- The last progress records of the lessons of a track. -/
def trackRecords (lessons : List Lesson) (progress : List ProgressRecord) (key : String) :
    List ProgressRecord :=
  (trackLessons lessons key).filterMap fun l => lastRecord progress l.id

/-- The nearest integer, the larger one of two that are equally near. -/
def IsRoundHalfUp (q : ℚ) (n : ℤ) : Prop := q - 1 / 2 < n ∧ n ≤ q + 1 / 2

/-- The mean of the scores of some records. -/
def meanScore (records : List ProgressRecord) : ℚ :=
  (records.map ProgressRecord.score).sum / records.length

/-- What an entry says about the lessons and the records of its track. -/
structure TrackSpec (lessons : List Lesson) (progress : List ProgressRecord) (t : Track) :
    Prop where
  trackName : ∃ l, (trackLessons lessons t.trackId).head? = some l ∧
    t.trackName = orElse l.trackName "General"
  totalLessons : t.totalLessons = lessons.countP fun l => trackKey l = t.trackId
  completedLessons : t.completedLessons = (trackLessons lessons t.trackId).countP fun l =>
    (lastRecord progress l.id).any fun p => p.completed
  averageScore_none : trackRecords lessons progress t.trackId = [] → t.averageScore = 0
  averageScore : trackRecords lessons progress t.trackId ≠ [] →
    IsRoundHalfUp (meanScore (trackRecords lessons progress t.trackId)) t.averageScore

/-! ## The records -/

/-- The map of the records holds the last record of each lesson. -/
theorem get_progressMap_eq_lastRecord (progress : List ProgressRecord) (lessonId : String) :
    (progressMap progress).get lessonId = lastRecord progress lessonId := by
  rw [get_progressMap_eq_last, lastRecord, Keyed.lookup, ← List.head?_filter, List.filter_reverse,
    List.head?_reverse]

/-- `Math.round` is the rounding of the specification. -/
theorem isRoundHalfUp_iff {q : ℚ} {n : ℤ} : IsRoundHalfUp q n ↔ n = mathRound q := by
  rw [eq_comm, mathRound, Int.floor_eq_iff, IsRoundHalfUp]
  constructor
  · rintro ⟨hlow, hhigh⟩
    exact ⟨hhigh, by linarith⟩
  · rintro ⟨hhigh, hlow⟩
    exact ⟨by linarith, hhigh⟩

/-- Rounding keeps integer bounds. -/
theorem IsRoundHalfUp.mem_Icc {q : ℚ} {n a b : ℤ} (h : IsRoundHalfUp q n) (ha : a ≤ q)
    (hb : q ≤ b) : a ≤ n ∧ n ≤ b := by
  obtain ⟨hlow, hhigh⟩ := h
  constructor
  · have hlt : (a : ℚ) < n + 1 := by linarith
    exact Int.lt_add_one_iff.mp (by exact_mod_cast hlt)
  · have hlt : (n : ℚ) < b + 1 := by linarith
    exact Int.lt_add_one_iff.mp (by exact_mod_cast hlt)

/-- The mean of scores between two bounds is between them. -/
theorem meanScore_mem_Icc {records : List ProgressRecord} {a b : ℚ} (hne : records ≠ [])
    (h : ∀ p ∈ records, a ≤ p.score ∧ p.score ≤ b) :
    a ≤ meanScore records ∧ meanScore records ≤ b := by
  -- the sum is between the sums of the bounds
  have hsum : ∀ rs : List ProgressRecord, (∀ p ∈ rs, a ≤ p.score ∧ p.score ≤ b) →
      rs.length * a ≤ (rs.map ProgressRecord.score).sum ∧
        (rs.map ProgressRecord.score).sum ≤ rs.length * b := by
    intro rs
    induction rs with
    | nil => simp
    | cons p rs ih =>
      intro hrs
      obtain ⟨hlow, hhigh⟩ := ih fun q hq => hrs q (List.mem_cons_of_mem _ hq)
      obtain ⟨ha, hb⟩ := hrs p List.mem_cons_self
      rw [List.map_cons, List.sum_cons, List.length_cons]
      push_cast
      constructor <;> linarith
  have hpos : (0 : ℚ) < records.length := by
    exact_mod_cast List.length_pos_iff.mpr hne
  obtain ⟨hlow, hhigh⟩ := hsum records h
  exact ⟨(le_div_iff₀' hpos).mpr hlow, (div_le_iff₀' hpos).mpr hhigh⟩

/-! ## The entries -/

section Entries

variable {lessons : List Lesson} {progress : List ProgressRecord}

/-- The loop over the lessons lists the tracks in the order of their first lessons. -/
theorem keys_foldl_addLesson (A : Arithmetic) (records : OrderedMap String ProgressRecord)
    (lessons : List Lesson) :
    (lessons.foldl (addLesson A records) OrderedMap.empty).keys =
      (lessons.map trackKey).eraseDups := by
  -- on the last lesson, which the loop has just seen
  induction lessons using List.reverseRecOn with
  | nil => rfl
  | append_singleton lessons l ih =>
    rw [List.foldl_append, List.foldl_cons, List.foldl_nil, addLesson, OrderedMap.keys_set, ih,
      List.map_append, List.eraseDups_append]
    simp only [List.mem_eraseDups]
    split_ifs with hmem
    -- the track of `l` has an entry already, or gets the last one
    · rw [List.removeAll, List.map_singleton, List.filter_cons_of_neg (by simpa using hmem)]
      simp
    · rw [List.removeAll, List.map_singleton, List.filter_cons_of_pos (by simpa using hmem)]
      simp [List.eraseDups_cons]

/-- **The entries come in the order of first appearance.** -/
theorem buildTrackStats_eq_map (A : Arithmetic) (lessons : List Lesson)
    (progress : List ProgressRecord) :
    buildTrackStats A lessons progress = (lessons.map trackKey).eraseDups.map fun key =>
      withAverage A (tally A (progressMap progress).get lessons key) := by
  rw [← keys_foldl_addLesson A (progressMap progress), buildTrackStats, OrderedMap.values,
    List.map_map, OrderedMap.keys, List.map_map]
  refine List.map_congr_left fun e he => ?_
  exact congrArg (withAverage A) (trackId_eq_of_mem A he).2

theorem trackId_buildTrackStats (A : Arithmetic) (lessons : List Lesson)
    (progress : List ProgressRecord) :
    (buildTrackStats A lessons progress).map Track.trackId = (lessons.map trackKey).eraseDups := by
  rw [buildTrackStats_eq_map, List.map_map]
  exact List.map_id _

/-- The arithmetic matters for the sums and the means alone. -/
theorem unscored_buildTrackStats (A B : Arithmetic) (lessons : List Lesson)
    (progress : List ProgressRecord) :
    (buildTrackStats A lessons progress).map Track.unscored =
      (buildTrackStats B lessons progress).map Track.unscored := by
  rw [buildTrackStats_eq_map, buildTrackStats_eq_map, List.map_map, List.map_map]
  rfl

/-- The records that the loop finds for the lessons of a track. -/
theorem filterMap_get_progressMap (lessons : List Lesson) (progress : List ProgressRecord)
    (key : String) :
    (trackLessons lessons key).filterMap (fun l => (progressMap progress).get l.id) =
      trackRecords lessons progress key := by
  simp only [trackRecords, get_progressMap_eq_lastRecord]

/-- **Each entry says what is the case of its track.** -/
theorem trackSpec_of_mem {t : Track} (ht : t ∈ buildTrackStats .exact lessons progress) :
    TrackSpec lessons progress t := by
  obtain ⟨key, hkey, rfl⟩ := mem_buildTrackStats.mp ht
  have hrecords := filterMap_get_progressMap lessons progress key
  refine ⟨?_, ?_, ?_, ?_, ?_⟩
  -- the name of the first lesson, and the number of the lessons
  · obtain ⟨l, hl⟩ : ∃ l, (trackLessons lessons key).head? = some l :=
      ⟨_, List.head?_eq_some_head (trackLessons_ne_nil.mpr hkey)⟩
    refine ⟨l, hl, ?_⟩
    simp [withAverage, tally, hl]
  · simp [withAverage, tally, trackLessons, List.countP_eq_length_filter]
  -- a lesson is completed when it has a last record and that one says so
  · simp only [withAverage, tally, hrecords]
    simp only [trackRecords, List.countP_filterMap]
    refine List.countP_congr fun l _ => ?_
    cases lastRecord progress l.id <;> simp
  -- the average, without and with records
  · intro hnone
    simp only [withAverage, tally, hrecords] at hnone ⊢
    simp [hnone]
  · intro hsome
    simp only [withAverage, tally, hrecords] at hsome ⊢
    rw [if_pos (List.length_pos_iff.mpr hsome), Arithmetic.sum_exact]
    exact isRoundHalfUp_iff.mpr rfl

/-- The totals of the tracks sum to the number of lessons. -/
theorem sum_totalLessons (lessons : List Lesson) (progress : List ProgressRecord) :
    ((buildTrackStats .exact lessons progress).map Track.totalLessons).sum = lessons.length := by
  -- the total of a track is the multiplicity of its key among the keys of the lessons
  have hcounts : (buildTrackStats .exact lessons progress).map Track.totalLessons =
      ((buildTrackStats .exact lessons progress).map Track.trackId).map
        fun key => (lessons.map trackKey).count key := by
    rw [List.map_map]
    refine List.map_congr_left fun t ht => ?_
    rw [(trackSpec_of_mem ht).totalLessons, Function.comp, List.count, List.countP_map]
    refine List.countP_congr fun l _ => ?_
    simp
  have hkeys : ((buildTrackStats .exact lessons progress).map Track.trackId).Perm
      (lessons.map trackKey).dedup := by
    refine (List.perm_ext_iff_of_nodup (nodup_trackId_buildTrackStats _ _ _)
      (List.nodup_dedup _)).mpr fun key => ?_
    rw [trackId_buildTrackStats, List.mem_eraseDups, List.mem_dedup]
  rw [hcounts, (hkeys.map _).sum_eq, List.sum_map_count_dedup_eq_length, List.length_map]

/-- A track has no more completed lessons than lessons. -/
theorem TrackSpec.completedLessons_le {t : Track} (h : TrackSpec lessons progress t) :
    t.completedLessons ≤ t.totalLessons := by
  have hlength : (lessons.countP fun l => trackKey l = t.trackId) =
      (trackLessons lessons t.trackId).length := List.countP_eq_length_filter
  rw [h.completedLessons, h.totalLessons, hlength]
  exact List.countP_le_length

/-- Averages of scores between 0 and 100 are between 0 and 100. -/
theorem TrackSpec.averageScore_mem_Icc {t : Track} (h : TrackSpec lessons progress t)
    (hscores : ∀ p ∈ progress, 0 ≤ p.score ∧ p.score ≤ 100) :
    0 ≤ t.averageScore ∧ t.averageScore ≤ 100 := by
  by_cases hnone : trackRecords lessons progress t.trackId = []
  · rw [h.averageScore_none hnone]
    decide
  · have hrecords : ∀ p ∈ trackRecords lessons progress t.trackId, 0 ≤ p.score ∧ p.score ≤ 100 := by
      intro p hp
      obtain ⟨l, -, hl⟩ := List.mem_filterMap.mp hp
      exact hscores p (List.mem_of_mem_filter (List.mem_of_getLast? hl))
    obtain ⟨hlow, hhigh⟩ := meanScore_mem_Icc hnone hrecords
    apply (h.averageScore hnone).mem_Icc
    · exact_mod_cast hlow
    · exact_mod_cast hhigh

/-- With one record for a lesson, the order of the records does not matter. -/
theorem buildTrackStats_progress_perm (A : Arithmetic) {progress' : List ProgressRecord}
    (h : progress'.Perm progress) (hids : (progress.map ProgressRecord.lessonId).Nodup) :
    buildTrackStats A lessons progress' = buildTrackStats A lessons progress := by
  refine buildTrackStats_congr A rfl fun id => ?_
  have hids' : (progress'.map ProgressRecord.lessonId).Nodup := (h.map _).nodup_iff.mpr hids
  rw [get_progressMap hids', get_progressMap hids, Keyed.lookup_perm h hids']

/-- Scores that are whole numbers of at most `b` on both sides of zero. -/
def WholeScores (b : ℕ) (progress : List ProgressRecord) : Prop :=
  Arithmetic.Whole b (progress.map ProgressRecord.score)

variable {b : ℕ}

/-- The scores of a track are among the scores. -/
theorem WholeScores.trackRecords (h : WholeScores b progress) (lessons : List Lesson)
    (key : String) : WholeScores b (LanguageGuru.trackRecords lessons progress key) := by
  intro x hx
  obtain ⟨p, hp, rfl⟩ := List.mem_map.mp hx
  obtain ⟨l, -, hl⟩ := List.mem_filterMap.mp hp
  exact h _ (List.mem_map_of_mem (List.mem_of_mem_filter (List.mem_of_getLast? hl)))

/-- A track has no more records than there are lessons. -/
theorem length_trackRecords_le (lessons : List Lesson) (progress : List ProgressRecord)
    (key : String) : (trackRecords lessons progress key).length ≤ lessons.length :=
  (List.length_filterMap_le _ _).trans (List.length_filter_le _ _)

/-- **The statistics of whole scores are the same in doubles**, unless the sums are huge. An array
has less than `2 ^ 32` elements. -/
theorem buildTrackStats_double (h : WholeScores b progress) (hlessons : lessons.length < 2 ^ 32)
    (hsmall : b * lessons.length < 2 ^ 52) :
    buildTrackStats .double lessons progress = buildTrackStats .exact lessons progress := by
  rw [buildTrackStats_eq_map, buildTrackStats_eq_map]
  refine List.map_congr_left fun key _ => ?_
  have hwhole := h.trackRecords lessons key
  have hlength :
      ((trackRecords lessons progress key).map ProgressRecord.score).length ≤ lessons.length := by
    rw [List.length_map]
    exact length_trackRecords_le lessons progress key
  have hproduct := (Nat.mul_le_mul_left b hlength).trans_lt hsmall
  have hsum := hwhole.sum_double hproduct
  have hmean := hwhole.floor_mean_double hproduct (by omega)
  rw [List.length_map] at hmean
  simp only [withAverage, tally, mathRound, filterMap_get_progressMap, hsum] at hmean ⊢
  rw [hmean]

end Entries

/-- **The specification of `buildTrackStats`.** There is one entry for each track, in the order of
first appearance; each entry says what is the case of its track; the totals sum to the number of
lessons; completed lessons are lessons; averages of scores from 0 to 100 are from 0 to 100; and the
order of progress with distinct lesson ids does not matter. Sums and means are exact; for whole
scores with sums below `2 ^ 52`, doubles give the same statistics. -/
theorem buildTrackStats_spec (lessons : List Lesson) (progress : List ProgressRecord) :
    let stats := buildTrackStats .exact lessons progress
    stats.map Track.trackId = (lessons.map trackKey).eraseDups ∧
    (∀ t ∈ stats, TrackSpec lessons progress t) ∧
    (stats.map Track.totalLessons).sum = lessons.length ∧
    (∀ t ∈ stats, t.completedLessons ≤ t.totalLessons) ∧
    ((∀ p ∈ progress, 0 ≤ p.score ∧ p.score ≤ 100) →
      ∀ t ∈ stats, 0 ≤ t.averageScore ∧ t.averageScore ≤ 100) ∧
    ((progress.map ProgressRecord.lessonId).Nodup → ∀ progress', progress'.Perm progress →
      buildTrackStats .exact lessons progress' = stats) ∧
    (∀ b, WholeScores b progress → lessons.length < 2 ^ 32 → b * lessons.length < 2 ^ 52 →
      buildTrackStats .double lessons progress = stats) := by
  refine ⟨trackId_buildTrackStats .exact lessons progress, fun t ht => trackSpec_of_mem ht,
    sum_totalLessons lessons progress, fun t ht => ?_, fun hscores t ht => ?_, fun hids _ h => ?_,
    fun _ => buildTrackStats_double⟩
  · exact (trackSpec_of_mem ht).completedLessons_le
  · exact (trackSpec_of_mem ht).averageScore_mem_Icc hscores
  · exact buildTrackStats_progress_perm .exact h hids

end LanguageGuru
