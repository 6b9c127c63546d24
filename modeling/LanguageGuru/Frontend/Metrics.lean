import LanguageGuru.Backend.Content
import LanguageGuru.Backend.MemoryRuns
import LanguageGuru.Backend.PlainPlatform
import LanguageGuru.Backend.TrackStats

/-!
# The track metrics of the home screen

The home screen counts the lessons of the selected track, the completed ones among them, and the
mean score, from the lessons and the progress that it has fetched. The server computes the same
numbers for each track that has a lesson. The counts agree for every track id that is not empty and
not the id of the track to which the server assigns the lessons without one. The two add the scores
in different orders, so the means agree when the scores are whole numbers.

## Main definitions

* `trackMetrics`: the metrics that the home screen computes
* `entryMetrics`: the metrics that the entry of a track shows
* `roundedMean`: the mean that either side shows of a list of scores
* `Reads`: a store call that reads

## Main results

* `trackMetrics_responses`, `entryMetrics_buildTrackStats`: what both sides count
* `metrics_agree`: the metrics agree for the responses of the routes
-/

namespace LanguageGuru

open Process

structure TrackMetrics where
  trackLessons : ℕ
  completedCount : ℕ
  avgScore : ℤ
  deriving DecidableEq, Repr

/-- The metrics of the selected track that the home screen shows. A score that is missing counts
as zero; a stored score is always a number. -/
def trackMetrics (A : Arithmetic) (items : List LessonResponse) (progress : List ProgressResponse)
    (selectedTrack : String) : TrackMetrics :=
  let trackLessons := items.filter fun l => l.trackId = some selectedTrack
  let trackLessonIds := trackLessons.map fun l => l.id
  let trackProgress := progress.filter fun p => p.lessonId ∈ trackLessonIds
  { trackLessons := trackLessons.length
    completedCount := (trackLessons.filter fun l => l.completed).length
    avgScore :=
      if trackProgress.length > 0 then
        mathRound (A.div (A.sum (trackProgress.map fun p => p.score)) trackProgress.length)
      else 0 }

/-- The metrics of the entry for a track, all 0 when there is none. -/
def entryMetrics (stats : List Track) (trackId : String) : TrackMetrics :=
  match stats.find? fun t => t.trackId = trackId with
  | some t => ⟨t.totalLessons, t.completedLessons, t.averageScore⟩
  | none => ⟨0, 0, 0⟩

/-! ## Means of scores -/

section Means

variable (A : Arithmetic) {xs ys : List ℚ}

/-- The mean that either side shows of a list of scores. -/
def roundedMean (xs : List ℚ) : ℤ :=
  if xs.length > 0 then mathRound (A.div (A.sum xs) xs.length) else 0

/-- The exact mean does not depend on the order. -/
theorem roundedMean_perm (h : xs.Perm ys) : roundedMean .exact xs = roundedMean .exact ys := by
  simp only [roundedMean, Arithmetic.sum_exact, h.sum_eq, h.length_eq]

/-- The mean of whole scores is rounded alike in doubles. -/
theorem roundedMean_double (h : Arithmetic.Whole 100 xs) (hlength : xs.length < 2 ^ 32) :
    roundedMean .double xs = roundedMean .exact xs := by
  have hmean := h.floor_mean_double (by omega) (by omega)
  simp only [roundedMean, mathRound, hmean]

/-- The mean of whole scores does not depend on the order. -/
theorem roundedMean_double_perm (h : Arithmetic.Whole 100 ys) (hperm : xs.Perm ys)
    (hlength : ys.length < 2 ^ 32) : roundedMean .double xs = roundedMean .double ys := by
  have hxs : Arithmetic.Whole 100 xs := fun x hx => h x (hperm.mem_iff.mp hx)
  rw [roundedMean_double h hlength, roundedMean_double hxs (hperm.length_eq ▸ hlength),
    roundedMean_perm hperm]

end Means

/-! ## Both sides count the same -/

section Counting

variable {ls : List Lesson} {ps : List ProgressRecord} {selectedTrack : String}

/-- A lesson has a track id that is not empty and not the fallback if and only if the server counts
it for this track. -/
theorem trackId_eq_some_iff (hne : selectedTrack ≠ "") (hgeneral : selectedTrack ≠ "general")
    (l : Lesson) : l.trackId = some selectedTrack ↔ trackKey l = selectedTrack := by
  unfold trackKey
  cases l.trackId with
  | none => simp [hgeneral.symm]
  | some id =>
    -- an empty id is taken for a missing one
    rw [orElse_some]
    split_ifs with hid
    · subst hid
      simp [hne.symm, hgeneral.symm]
    · simp

/-- The records of a track have distinct lessons. -/
theorem map_lessonId_trackRecords_sublist (own : List Lesson) (ps : List ProgressRecord) :
    ((own.filterMap fun l => lastRecord ps l.id).map ProgressRecord.lessonId).Sublist
      (own.map fun l => l.id) := by
  induction own with
  | nil => simp
  | cons l own ih =>
    rw [List.filterMap_cons]
    cases hl : lastRecord ps l.id with
    | none => exact ih.trans (List.sublist_cons_self _ _)
    | some p =>
      have hid : p.lessonId = l.id := by
        simpa using List.of_mem_filter (List.mem_of_getLast? hl)
      rw [List.map_cons, List.map_cons, hid]
      exact ih.cons_cons _

/-- The progress that the home screen selects by lesson ids is what the server looks up lesson by
lesson. -/
theorem trackProgress_perm (hids : (ls.map fun l => l.id).Nodup)
    (hrecords : (ps.map ProgressRecord.lessonId).Nodup) (key : String) :
    (ps.filter fun p => p.lessonId ∈ (trackLessons ls key).map fun l => l.id).Perm
      (trackRecords ls ps key) := by
  have hown : ((trackLessons ls key).map fun l => l.id).Nodup :=
    hids.sublist (List.filter_sublist.map _)
  -- both lists are without repetitions, so it is enough that they have the same records
  refine (List.perm_ext_iff_of_nodup (hrecords.of_map _ |>.filter _) ?_).mpr fun p => ?_
  · exact ((map_lessonId_trackRecords_sublist _ ps).nodup hown).of_map _
  · have hlast : ∀ id, lastRecord ps id = some p ↔ p ∈ ps ∧ p.lessonId = id := fun id => by
      rw [← get_progressMap_eq_lastRecord, get_progressMap hrecords,
        Keyed.lookup_eq_some_iff hrecords]
    simp only [trackRecords, List.mem_filter, List.mem_filterMap, hlast, decide_eq_true_eq,
      List.mem_map]
    constructor
    · rintro ⟨hp, l, hl, hid⟩
      exact ⟨l, hl, hp, hid.symm⟩
    · rintro ⟨l, hl, hp, hid⟩
      exact ⟨hp, l, hl, hid.symm⟩

/-- The metrics of the home screen: the mean is taken in the order of the progress. -/
theorem trackMetrics_responses (A : Arithmetic) (ls : List Lesson) (ps : List ProgressRecord)
    (hne : selectedTrack ≠ "") (hgeneral : selectedTrack ≠ "general") :
    trackMetrics A (ls.map fun l => toLessonResponse l (progressMap ps)) (formatProgress ps)
        selectedTrack =
      { trackLessons := (trackLessons ls selectedTrack).length
        completedCount := (trackRecords ls ps selectedTrack).countP fun p => p.completed
        avgScore := roundedMean A ((ps.filter fun p =>
          p.lessonId ∈ (trackLessons ls selectedTrack).map fun l => l.id).map
            ProgressRecord.score) } := by
  -- the items of the selected track are the lessons that the server counts for it
  have hitems : ((ls.map fun l => toLessonResponse l (progressMap ps)).filter
      fun l => l.trackId = some selectedTrack) =
      (trackLessons ls selectedTrack).map fun l => toLessonResponse l (progressMap ps) := by
    rw [List.filter_map, trackLessons]
    congr 1
    refine List.filter_congr fun l _ => ?_
    simp only [Function.comp, toLessonResponse, trackId_eq_some_iff hne hgeneral]
  have hshown : ∀ ids : List String, ((formatProgress ps).filter fun p => p.lessonId ∈ ids) =
      formatProgress (ps.filter fun p => p.lessonId ∈ ids) := fun ids => by
    rw [formatProgress, formatProgress, List.filter_map]
    rfl
  have hids : ((trackLessons ls selectedTrack).map fun l =>
      toLessonResponse l (progressMap ps)).map (fun l => l.id) =
        (trackLessons ls selectedTrack).map fun l => l.id := by
    rw [List.map_map]
    rfl
  have hscores : ∀ records : List ProgressRecord, (formatProgress records).length = records.length ∧
      ((formatProgress records).map fun p => p.score) = records.map ProgressRecord.score :=
    fun records => by
      rw [formatProgress, List.length_map, List.map_map]
      exact ⟨rfl, rfl⟩
  -- a lesson is completed when it has a last record and that one says so
  have hcompleted : (((trackLessons ls selectedTrack).map
      fun l => toLessonResponse l (progressMap ps)).filter fun l => l.completed).length =
      (trackRecords ls ps selectedTrack).countP fun p => p.completed := by
    rw [← List.countP_eq_length_filter, List.countP_map, trackRecords, List.countP_filterMap]
    refine List.countP_congr fun l _ => ?_
    rw [Function.comp, toLessonResponse, get_progressMap_eq_lastRecord]
    cases lastRecord ps l.id <;> simp
  simp only [trackMetrics, hitems, hids, hshown, hscores, hcompleted, List.length_map, roundedMean]

/-- The metrics of an entry: the mean is taken in the order of the lessons. -/
theorem entryMetrics_buildTrackStats (A : Arithmetic) (ls : List Lesson)
    (ps : List ProgressRecord) (key : String) :
    entryMetrics (buildTrackStats A ls ps) key =
      { trackLessons := (trackLessons ls key).length
        completedCount := (trackRecords ls ps key).countP fun p => p.completed
        avgScore := roundedMean A ((trackRecords ls ps key).map ProgressRecord.score) } := by
  unfold entryMetrics
  cases hfind : (buildTrackStats A ls ps).find? fun t => t.trackId = key with
  | some t =>
    obtain ⟨key', -, rfl⟩ := mem_buildTrackStats.mp (List.mem_of_find?_eq_some hfind)
    have hkey := List.find?_some hfind
    obtain rfl : key' = key := of_decide_eq_true hkey
    simp only [withAverage, tally, filterMap_get_progressMap, roundedMean, List.length_map]
  | none =>
    -- no lesson has the track, so there is nothing to count
    have hnone : trackLessons ls key = [] := by
      by_contra hlessons
      have hkey := trackLessons_ne_nil.mp hlessons
      rw [← List.mem_eraseDups, ← trackId_buildTrackStats A ls ps] at hkey
      obtain ⟨t, ht, rfl⟩ := List.mem_map.mp hkey
      exact absurd (decide_eq_true rfl) (List.find?_eq_none.mp hfind t ht)
    simp [trackRecords, hnone, roundedMean]

end Counting

/-! ## The responses of the routes -/

/-- In the state `s` the call is answered with `a`, and it leaves the state alone. -/
structure Reads {S : Type} (V : Store S) (s : S) (c : StoreCall) (a : Answer c) : Prop where
  answer : V.answer c s = .ok a
  state : (V.perform c s).2 = s

/-- A handler that begins with a read. -/
theorem Reads.exec {S : Type} {V : Store S} {s : S} {c : StoreCall} {a : Answer c}
    (h : Reads V s c a) (f : Answer c → Handler) :
    (awaitStore c >>= f).exec V s = (f a).exec V s := by
  have hanswer := h.answer
  rw [Service.answer] at hanswer
  rw [Program.await_bind, Program.exec_call, hanswer, Program.onAnswer_ok, h.state]

/-- **The home screen's track metrics agree with the server's.** Computed from the responses to
unfiltered `GET /lessons` and to `GET /progress`, the counts are those of the entry in the response
to `GET /tracks` in the same state, or 0 when there is none; the selected track is not empty and not
the fallback `general`. The means agree when the scores are whole numbers; an array of lessons has
less than `2 ^ 32` elements. -/
theorem metrics_agree {S : Type} {V : Store S} {s : S} {user : User} {ls : List Lesson}
    {ps : List ProgressRecord} (hlessons : Reads V s (.getLessons {}) ls)
    (hprogress : Reads V s (.getProgressForUser user.id) ps)
    (hids : (ls.map fun l => l.id).Nodup) (hrecords : (ps.map ProgressRecord.lessonId).Nodup)
    {req : Request} (hunfiltered : req.query = {}) {selectedTrack : String}
    (hne : selectedTrack ≠ "") (hgeneral : selectedTrack ≠ "general") :
    ∃ stats items shown,
      ((tracks user).exec V s).sent = [⟨200, .tracks stats⟩] ∧
      ((lessons req user).exec V s).sent = [⟨200, .lessons items⟩] ∧
      ((progress user).exec V s).sent = [⟨200, .progress shown⟩] ∧
      let metrics := trackMetrics .double items shown selectedTrack
      let entry := entryMetrics stats selectedTrack
      metrics.trackLessons = entry.trackLessons ∧
      metrics.completedCount = entry.completedCount ∧
      (WholeScores 100 ps → ls.length < 2 ^ 32 → metrics.avgScore = entry.avgScore) := by
  refine ⟨buildTrackStats .double ls ps, ls.map fun l => toLessonResponse l (progressMap ps),
    formatProgress ps, ?_, ?_, ?_, ?_⟩
  · rw [tracks, hlessons.exec, hprogress.exec]
    rfl
  · rw [lessons, hunfiltered, hlessons.exec, hprogress.exec]
    rfl
  · rw [progress, hprogress.exec]
    rfl
  · intro metrics entry
    have hmetrics : metrics = _ := trackMetrics_responses .double ls ps hne hgeneral
    have hentry : entry = _ := entryMetrics_buildTrackStats .double ls ps selectedTrack
    refine ⟨?_, ?_, fun hwhole hlength => ?_⟩
    · rw [hmetrics, hentry]
    · rw [hmetrics, hentry]
    -- the two means are of the same scores in another order
    · rw [hmetrics, hentry]
      refine roundedMean_double_perm (hwhole.trackRecords ls selectedTrack)
        ((trackProgress_perm hids hrecords selectedTrack).map _) ?_
      rw [List.length_map]
      exact (length_trackRecords_le ls ps selectedTrack).trans_lt hlength

/-- The bundled catalogue and some progress of the demo account; one of its lessons is gone. -/
def practisedStore : MemoryState :=
  { createMemoryStore plainPlatform coreLessons "salt" 0 with
    progress :=
      [⟨"u_demo", "l_int_2", true, 80, 1⟩, ⟨"u_demo", "l_gone", true, 90, 2⟩,
        ⟨"u_demo", "l_conf_1", false, 40, 3⟩, ⟨"u_demo", "l_int_1", false, 35, 4⟩] }

/-- The metrics of the interview track. -/
theorem interview_metrics_agree :
    let user := demoUser plainPlatform "u_demo" "salt" 0
    ∃ stats items shown,
      ((tracks user).exec (memoryStore plainPlatform) practisedStore).sent =
        [⟨200, .tracks stats⟩] ∧
      ((lessons (plainRequest .get ["api", "lessons"] none (.obj []) "") user).exec
        (memoryStore plainPlatform) practisedStore).sent = [⟨200, .lessons items⟩] ∧
      ((progress user).exec (memoryStore plainPlatform) practisedStore).sent =
        [⟨200, .progress shown⟩] ∧
      trackMetrics .double items shown "interview_mastery" =
        entryMetrics stats "interview_mastery" := by
  intro user
  have hlessons : Reads (memoryStore plainPlatform) practisedStore (.getLessons {})
      practisedStore.lessons := ⟨rfl, rfl⟩
  have hprogress : Reads (memoryStore plainPlatform) practisedStore (.getProgressForUser user.id)
      practisedStore.progress := ⟨rfl, rfl⟩
  have hwhole : WholeScores 100 practisedStore.progress := by
    intro x hx
    simp only [practisedStore, List.map_cons, List.map_nil, List.mem_cons, List.not_mem_nil,
      or_false] at hx
    rcases hx with rfl | rfl | rfl | rfl
    exacts [⟨80, by decide, rfl⟩, ⟨90, by decide, rfl⟩, ⟨40, by decide, rfl⟩, ⟨35, by decide, rfl⟩]
  have hunfiltered : (plainRequest .get ["api", "lessons"] none (.obj []) "").query = {} := rfl
  have hne : "interview_mastery" ≠ "" := by decide
  obtain ⟨stats, items, shown, htracks, hitems, hshown, hcount, hcompleted, havg⟩ :=
    metrics_agree hlessons hprogress (by decide) (by decide) hunfiltered hne (by decide)
  refine ⟨stats, items, shown, htracks, hitems, hshown, ?_⟩
  have havg := havg hwhole (by decide)
  cases hm : trackMetrics .double items shown "interview_mastery"
  cases he : entryMetrics stats "interview_mastery"
  simp only [hm, he] at hcount hcompleted havg
  rw [hcount, hcompleted, havg]

/-- **The means differ for scores that are no whole numbers.** The demo account submits the doubles
at 0.1, 4.1 and 0.3. The home screen adds them in this order, the server in the order of the
catalogue: one sum is less than 4.5. -/
theorem rounded_metrics_differ :
    let user := demoUser plainPlatform "u_demo" "salt" 0
    let posts := [("l_conf_1", (1 / 10 : ℚ)), ("l_conf_3", 41 / 10), ("l_conf_2", 3 / 10)].map
      fun p => plainPost p.1 (Arithmetic.toDouble p.2)
        (plainBearer "u_demo" "demo@languageguru.app" 0) ""
    let s := (createMemoryStore plainPlatform coreLessons "salt" 0).after plainPlatform plainConfig
      posts
    (s.lessons.map fun l => l.id).Nodup ∧
    ((s.progressOf "u_demo").map ProgressRecord.lessonId).Nodup ∧
    (∀ p ∈ s.progressOf "u_demo", 0 ≤ p.score ∧ p.score ≤ 100) ∧
    ¬ ∃ stats items shown,
      ((tracks user).exec (memoryStore plainPlatform) s).sent = [⟨200, .tracks stats⟩] ∧
      ((lessons (plainRequest .get ["api", "lessons"] none (.obj []) "") user).exec
        (memoryStore plainPlatform) s).sent = [⟨200, .lessons items⟩] ∧
      ((progress user).exec (memoryStore plainPlatform) s).sent = [⟨200, .progress shown⟩] ∧
      trackMetrics .double items shown "confidence_10min" =
        entryMetrics stats "confidence_10min" := by
  intro user posts s
  refine ⟨by decide +kernel, by decide +kernel, by decide +kernel, ?_⟩
  rintro ⟨stats, items, shown, htracks, hlessons, hprogress, hagree⟩
  rw [exec_tracks] at htracks
  rw [exec_lessons] at hlessons
  rw [exec_progress] at hprogress
  simp only [List.cons.injEq, Response.mk.injEq, Body.tracks.injEq, Body.lessons.injEq,
    Body.progress.injEq, true_and, and_true] at htracks hlessons hprogress
  rw [← htracks, ← hlessons, ← hprogress] at hagree
  revert hagree
  decide +kernel

/-- A lesson whose track id is empty. -/
def tracklessLesson : Lesson := ⟨⟨"l", some "", none, "", "", "", "", 0, []⟩, "", 0⟩

/-- For the empty track id, the home screen counts the lessons that the server assigns to the
fallback. -/
theorem empty_track_metrics_differ :
    let user := demoUser plainPlatform "u_demo" "salt" 0
    let s : MemoryState := ⟨[user], [tracklessLesson], []⟩
    ¬ ∃ stats items shown,
      ((tracks user).exec (memoryStore plainPlatform) s).sent = [⟨200, .tracks stats⟩] ∧
      ((lessons (plainRequest .get ["api", "lessons"] none (.obj []) "") user).exec
        (memoryStore plainPlatform) s).sent = [⟨200, .lessons items⟩] ∧
      ((progress user).exec (memoryStore plainPlatform) s).sent = [⟨200, .progress shown⟩] ∧
      (trackMetrics .double items shown "").trackLessons =
        (entryMetrics stats "").trackLessons := by
  intro user s
  rintro ⟨stats, items, shown, htracks, hlessons, hprogress, hagree⟩
  obtain rfl : buildTrackStats .double [tracklessLesson] [] = stats := by
    injection htracks with hresponse
    injection hresponse with _ hbody
    injection hbody
  obtain rfl : [toLessonResponse tracklessLesson (progressMap [])] = items := by
    injection hlessons with hresponse
    injection hresponse with _ hbody
    injection hbody
  obtain rfl : [] = shown := by
    injection hprogress with hresponse
    injection hresponse with _ hbody
    injection hbody
  exact absurd hagree (by decide)

end LanguageGuru
