import LanguageGuru.Backend.Content
import LanguageGuru.Backend.Http
import LanguageGuru.Process.Transition
import Mathlib.Data.List.Perm.Basic

/-!
# The quiz of the home screen

The result on the screen should be one of the quiz on the screen. A submission computes its result,
waits for `submitProgress`, which never rejects, and then writes the result into the state of the
screen. Closing the quiz does not cancel it, so that it may write into a quiz that was opened
meanwhile. An event handler runs to its end and then the screen is rendered; submissions complete in
any order.

To say what belongs to a quiz, the state also counts the quizzes opened and records the options
selected since the quiz was opened, the submission that wrote the result, and every call of
`submitProgress`.

## Main definitions

* `QuizState`: the state, with the pending submissions
* `onOpenQuiz`, `onSubmitQuiz`, `onCloseQuiz`: the handlers
* `QuizEvent`, `QuizState.step`: what can happen next, and what it does
* `QuizState.BelongsToQuiz`: result and indicator belong to the quiz on the screen
* `QuizState.KeepsQuiz`: the condition on an event
* `QuizState.QuizInv`: the invariant

## Main results

* `QuizInv.step`: an event that meets the condition keeps the invariant
* `quiz_result_belongs_iff`: the condition is exact for runs
* `stale_quiz_result`: a result is shown in another quiz
-/

namespace LanguageGuru

open Process

/-- `quizResult`. -/
structure QuizResult where
  isCorrect : Bool
  score : ℕ
  answer : String
  deriving DecidableEq, Repr

/-- The result of answering a question. -/
def gradeQuiz (firstQuestion : Question) (selectedOption : String) : QuizResult :=
  let isCorrect : Bool := firstQuestion.answer = selectedOption
  { isCorrect
    score := if isCorrect then 100 else 0
    answer := firstQuestion.answer }

/-- A call of `onSubmitQuiz` that waits for `submitProgress`, with the number of its quiz and the
option that it graded. -/
structure QuizSubmission where
  quiz : ℕ
  lesson : LessonResponse
  selectedOption : String
  result : QuizResult
  deriving DecidableEq, Repr

/-- The state of the quiz. The last four fields number the quizzes and record the options selected
in the one opened last, the submission that wrote the result, and the calls of `submitProgress`. -/
structure QuizState where
  activeLesson : Option LessonResponse
  selectedOption : String
  quizResult : Option QuizResult
  isSubmittingQuiz : Bool
  pending : List QuizSubmission
  quiz : ℕ
  selected : List String
  writtenBy : Option QuizSubmission
  calls : List (ℕ × String × ℕ)
  deriving DecidableEq, Repr

/-- The state when the home screen is mounted. -/
def initialQuiz : QuizState where
  activeLesson := none
  selectedOption := ""
  quizResult := none
  isSubmittingQuiz := false
  pending := []
  quiz := 0
  selected := []
  writtenBy := none
  calls := []

/-- What can happen next. -/
inductive QuizEvent where
  | start (lesson : LessonResponse)
  | select (option : String)
  | submit
  | submitted (i : ℕ)
  | close

namespace QuizState

variable (s : QuizState)

/-- The question on the screen: the first one of the active lesson. -/
def firstQuestion : Option Question := s.activeLesson.bind fun lesson => lesson.quiz.head?

/-! ## The handlers -/

def onOpenQuiz (lesson : LessonResponse) : QuizState :=
  { s with
    activeLesson := some lesson
    selectedOption := ""
    quizResult := none
    quiz := s.quiz + 1
    selected := []
    writtenBy := none }

/-- An option is pressed. -/
def selectOption (option : String) : QuizState :=
  { s with
    selectedOption := option
    selected := s.selected ++ [option] }

/-- `submitProgress` is called with the score, and the handler waits for it. -/
def submitQuiz (lesson : LessonResponse) (firstQuestion : Question) : QuizState :=
  let result := gradeQuiz firstQuestion s.selectedOption
  { s with
    isSubmittingQuiz := true
    pending := s.pending ++ [⟨s.quiz, lesson, s.selectedOption, result⟩]
    calls := s.calls ++ [(s.quiz, lesson.id, result.score)] }

/-- `onSubmitQuiz` up to its `await`. -/
def onSubmitQuiz : QuizState :=
  match s.activeLesson with
  | none => s
  | some lesson =>
    match lesson.quiz with
    | [] => s
    | firstQuestion :: _ =>
      if s.selectedOption = "" || s.quizResult.isSome || s.isSubmittingQuiz then s
      else s.submitQuiz lesson firstQuestion

/-- `onSubmitQuiz` after its `await`. -/
def quizSubmitted (submission : QuizSubmission) : QuizState :=
  { s with
    quizResult := some submission.result
    isSubmittingQuiz := false
    writtenBy := some submission }

def onCloseQuiz : QuizState :=
  { s with
    activeLesson := none
    selectedOption := ""
    quizResult := none
    isSubmittingQuiz := false
    writtenBy := none }

/-! ## The screen -/

/-- The options are those of the question on the screen. -/
def pressOption (option : String) : QuizState :=
  if ∃ question ∈ s.firstQuestion, option ∈ question.options then s.selectOption option else s

/-- The button is disabled under the conditions under which `onSubmitQuiz` returns at once. -/
def pressSubmit : QuizState := s.onSubmitQuiz

def pressClose : QuizState := if s.activeLesson.isSome then s.onCloseQuiz else s

/-- The submission at a position completes. -/
def completeSubmission (i : ℕ) : QuizState :=
  match s.pending[i]? with
  | none => s
  | some submission => { s with pending := s.pending.eraseIdx i }.quizSubmitted submission

/-- The handler of an event runs. -/
def step (s : QuizState) : QuizEvent → QuizState
  | .start lesson => s.onOpenQuiz lesson
  | .select option => s.pressOption option
  | .submit => s.pressSubmit
  | .submitted i => s.completeSubmission i
  | .close => s.pressClose

/-! ## What belongs to the quiz on the screen -/

/-- A submission of the quiz on the screen, for a lesson: its result was computed from the first
question and an option selected since the quiz was opened, and `submitProgress` was called. -/
structure SubmittedHere (lesson : LessonResponse) (submission : QuizSubmission) : Prop where
  quiz_eq : submission.quiz = s.quiz
  lesson_eq : submission.lesson = lesson
  selected : submission.selectedOption ∈ s.selected
  result : ∃ question ∈ lesson.quiz.head?,
    submission.result = gradeQuiz question submission.selectedOption
  called : (s.quiz, lesson.id, submission.result.score) ∈ s.calls

/-- The result of an open quiz was written by a submission of that quiz, and the screen shows that
an answer is being submitted exactly while one of the open quiz is. -/
structure BelongsToQuiz : Prop where
  result : ∀ lesson ∈ s.activeLesson, ∀ result ∈ s.quizResult,
    ∃ submission ∈ s.writtenBy, submission.result = result ∧ s.SubmittedHere lesson submission
  submitting : s.isSubmittingQuiz = true ↔
    s.activeLesson ≠ none ∧ ∃ submission ∈ s.pending, submission.quiz = s.quiz

/-- A quiz is opened while no answer is being submitted, and a submission that completes while a
quiz is open was made in it. -/
def KeepsQuiz : QuizEvent → Prop
  | .start _ => s.isSubmittingQuiz = false
  | .submitted i => s.activeLesson ≠ none → ∀ submission ∈ s.pending[i]?, submission.quiz = s.quiz
  | _ => True

/-- The law with what it rests on: the option on the screen was selected in the quiz on the screen,
and that quiz has one pending submission at most. -/
structure QuizInv : Prop extends BelongsToQuiz s where
  option_selected : s.selectedOption ≠ "" → s.selectedOption ∈ s.selected
  quiz_le : ∀ submission ∈ s.pending, submission.quiz ≤ s.quiz
  submittedHere : ∀ lesson ∈ s.activeLesson, ∀ submission ∈ s.pending, submission.quiz = s.quiz →
    s.SubmittedHere lesson submission
  one_pending : s.pending.countP (fun submission => submission.quiz = s.quiz) ≤ 1

variable {s}

/-! ## The handlers and the invariant -/

theorem quizInv_initialQuiz : initialQuiz.QuizInv where
  result := nofun
  submitting := by simp [initialQuiz]
  option_selected h := absurd rfl h
  quiz_le := nofun
  submittedHere := nofun
  one_pending := Nat.zero_le _

/-- No submission is pending of a quiz that is opened next. -/
theorem QuizInv.quiz_lt (h : s.QuizInv) {submission : QuizSubmission}
    (hmem : submission ∈ s.pending) : submission.quiz ≠ s.quiz + 1 := by
  have := h.quiz_le submission hmem
  omega

/-- Opening a quiz while nothing is being submitted. -/
theorem QuizInv.onOpenQuiz (h : s.QuizInv) (hidle : s.isSubmittingQuiz = false)
    (lesson : LessonResponse) : (s.onOpenQuiz lesson).QuizInv where
  result _ _ := nofun
  submitting := by
    show s.isSubmittingQuiz = true ↔ _
    rw [hidle]
    constructor
    · exact nofun
    · rintro ⟨-, submission, hmem, hquiz⟩
      exact absurd hquiz (h.quiz_lt hmem)
  option_selected h := absurd rfl h
  quiz_le submission hmem := (h.quiz_le submission hmem).trans (Nat.le_succ _)
  submittedHere _ _ submission hmem hquiz := absurd hquiz (h.quiz_lt hmem)
  one_pending := by
    have hnone : s.pending.countP (fun submission => submission.quiz = s.quiz + 1) = 0 := by
      apply List.countP_eq_zero.mpr
      intro submission hmem
      simpa using h.quiz_lt hmem
    exact hnone.le.trans (Nat.zero_le _)

theorem SubmittedHere.selectOption {lesson : LessonResponse} {submission : QuizSubmission}
    (h : s.SubmittedHere lesson submission) (option : String) :
    (s.selectOption option).SubmittedHere lesson submission :=
  ⟨h.quiz_eq, h.lesson_eq, List.mem_append_left _ h.selected, h.result, h.called⟩

theorem QuizInv.selectOption (h : s.QuizInv) (option : String) :
    (s.selectOption option).QuizInv where
  result lesson hopen result hresult := by
    obtain ⟨submission, hwritten, heq, hhere⟩ := h.result lesson hopen result hresult
    exact ⟨submission, hwritten, heq, hhere.selectOption option⟩
  submitting := h.submitting
  option_selected _ := List.mem_append_right _ (List.mem_singleton.mpr rfl)
  quiz_le := h.quiz_le
  submittedHere lesson hopen submission hmem hquiz :=
    (h.submittedHere lesson hopen submission hmem hquiz).selectOption option
  one_pending := h.one_pending

theorem SubmittedHere.submitQuiz {lesson lesson' : LessonResponse} {question : Question}
    {submission : QuizSubmission} (h : s.SubmittedHere lesson submission) :
    (s.submitQuiz lesson' question).SubmittedHere lesson submission :=
  ⟨h.quiz_eq, h.lesson_eq, h.selected, h.result, List.mem_append_left _ h.called⟩

/-- Submitting an answer of the open quiz when none is being submitted. -/
theorem QuizInv.submitQuiz (h : s.QuizInv) {lesson : LessonResponse} {question : Question}
    (hopen : s.activeLesson = some lesson) (hquestion : lesson.quiz.head? = some question)
    (hoption : s.selectedOption ≠ "") (hresult : s.quizResult = none)
    (hidle : s.isSubmittingQuiz = false) : (s.submitQuiz lesson question).QuizInv := by
  -- no submission of the open quiz is pending
  have hnone : ∀ submission ∈ s.pending, submission.quiz ≠ s.quiz := by
    intro submission hmem hquiz
    have hbusy := h.submitting.mpr ⟨by simp [hopen], submission, hmem, hquiz⟩
    rw [hidle] at hbusy
    cases hbusy
  have hhere : (s.submitQuiz lesson question).SubmittedHere lesson
      ⟨s.quiz, lesson, s.selectedOption, gradeQuiz question s.selectedOption⟩ :=
    { quiz_eq := rfl
      lesson_eq := rfl
      selected := h.option_selected hoption
      result := ⟨question, hquestion, rfl⟩
      called := List.mem_append_right _ (List.mem_singleton.mpr rfl) }
  exact
    { result := by
        intro lesson' _ result hresult'
        rw [show (s.submitQuiz lesson question).quizResult = none from hresult] at hresult'
        cases hresult'
      submitting := by
        apply iff_of_true rfl
        refine ⟨?_, _, List.mem_append_right _ (List.mem_singleton.mpr rfl), rfl⟩
        rw [show (s.submitQuiz lesson question).activeLesson = some lesson from hopen]
        exact Option.some_ne_none lesson
      option_selected := h.option_selected
      quiz_le := by
        intro submission hmem
        rcases List.mem_append.mp hmem with hold | hnew
        · exact h.quiz_le submission hold
        · rw [List.mem_singleton.mp hnew]
          exact Nat.le_refl _
      submittedHere := by
        intro lesson' hopen' submission hmem hquiz
        have hlesson : lesson = lesson' := Option.some.inj (hopen.symm.trans hopen')
        subst hlesson
        rcases List.mem_append.mp hmem with hold | hnew
        · exact absurd hquiz (hnone submission hold)
        · rw [List.mem_singleton.mp hnew]
          exact hhere
      one_pending := by
        have hzero : s.pending.countP (fun submission => submission.quiz = s.quiz) = 0 := by
          apply List.countP_eq_zero.mpr
          intro submission hmem
          simpa using hnone submission hmem
        have hone : ∀ p : QuizSubmission, (s.pending ++ [p]).countP
            (fun submission => submission.quiz = s.quiz) ≤ 1 := by
          intro p
          rw [List.countP_append, hzero, Nat.zero_add]
          exact List.countP_le_length
        exact hone _ }

theorem QuizInv.onSubmitQuiz (h : s.QuizInv) : s.onSubmitQuiz.QuizInv := by
  unfold QuizState.onSubmitQuiz
  cases hopen : s.activeLesson with
  | none => exact h
  | some lesson =>
    dsimp only
    cases hquiz : lesson.quiz with
    | nil => exact h
    | cons question questions =>
      dsimp only
      split
      · exact h
      · rename_i hguard
        simp only [Bool.or_eq_true, decide_eq_true_eq, not_or, Bool.not_eq_true] at hguard
        obtain ⟨⟨hoption, hresult⟩, hidle⟩ := hguard
        have hquestion : lesson.quiz.head? = some question := by rw [hquiz]; rfl
        have hresult' : s.quizResult = none := Option.not_isSome_iff_eq_none.mp (by simp [hresult])
        exact h.submitQuiz hopen hquestion hoption hresult' hidle

theorem QuizInv.onCloseQuiz (h : s.QuizInv) : s.onCloseQuiz.QuizInv where
  result := nofun
  submitting := by simp [QuizState.onCloseQuiz]
  option_selected h := absurd rfl h
  quiz_le := h.quiz_le
  submittedHere := nofun
  one_pending := h.one_pending

/-- A submission completes that was made in the quiz on the screen, or while no quiz is open. -/
theorem QuizInv.completeSubmission (h : s.QuizInv) {i : ℕ} (hkeeps : s.KeepsQuiz (.submitted i)) :
    (s.completeSubmission i).QuizInv := by
  unfold QuizState.completeSubmission
  cases hi : s.pending[i]? with
  | none => exact h
  | some submission =>
    have hmem : submission ∈ s.pending := List.mem_of_getElem? hi
    have hothers : ∀ p ∈ s.pending.eraseIdx i, p ∈ s.pending := fun p => List.mem_of_mem_eraseIdx
    have hperm : (submission :: s.pending.eraseIdx i).Perm s.pending := by
      obtain ⟨hlt, rfl⟩ := List.getElem?_eq_some_iff.mp hi
      exact List.getElem_cons_eraseIdx_perm hlt
    have hcount := h.one_pending
    rw [← hperm.countP_eq] at hcount
    exact
      { result := by
          intro lesson hopen result hresult
          cases hresult
          have hquiz := hkeeps (by simp [show s.activeLesson = some lesson from hopen]) _ hi
          have hhere := h.submittedHere lesson hopen submission hmem hquiz
          exact ⟨submission, rfl, rfl, hhere.quiz_eq, hhere.lesson_eq, hhere.selected,
            hhere.result, hhere.called⟩
        submitting := by
          -- the submission was the only one of the open quiz
          apply iff_of_false Bool.false_ne_true
          rintro ⟨hopen, p, hp, hpquiz⟩
          have hquiz := hkeeps hopen _ hi
          have hpos : 0 < (s.pending.eraseIdx i).countP
              (fun submission => submission.quiz = s.quiz) :=
            List.countP_pos_iff.mpr ⟨p, hp, decide_eq_true hpquiz⟩
          rw [List.countP_cons_of_pos (by simpa using hquiz)] at hcount
          omega
        option_selected := h.option_selected
        quiz_le := by
          intro p hp
          exact h.quiz_le p (hothers p hp)
        submittedHere := by
          intro lesson hopen p hp hpquiz
          have hhere := h.submittedHere lesson hopen p (hothers p hp) hpquiz
          exact ⟨hhere.quiz_eq, hhere.lesson_eq, hhere.selected, hhere.result, hhere.called⟩
        one_pending := by
          rw [List.countP_cons] at hcount
          exact (Nat.le_add_right _ _).trans hcount }

/-- **An event that meets the condition keeps the invariant.** -/
theorem QuizInv.step (h : s.QuizInv) (e : QuizEvent) (hkeeps : s.KeepsQuiz e) :
    (s.step e).QuizInv := by
  cases e with
  | start lesson => exact h.onOpenQuiz hkeeps lesson
  | select option =>
    show (s.pressOption option).QuizInv
    unfold pressOption
    split
    · exact h.selectOption option
    · exact h
  | submit => exact h.onSubmitQuiz
  | submitted i => exact h.completeSubmission hkeeps
  | close =>
    show s.pressClose.QuizInv
    unfold pressClose
    split
    · exact h.onCloseQuiz
    · exact h

/-- An event that does not meet the condition breaks the law. -/
theorem keepsQuiz_of_belongsToQuiz (h : s.QuizInv) (e : QuizEvent)
    (hafter : (s.step e).BelongsToQuiz) : s.KeepsQuiz e := by
  cases e with
  | start lesson =>
    -- an indicator left from another quiz has no pending submission of the quiz just opened
    show s.isSubmittingQuiz = false
    by_contra hbusy
    obtain ⟨-, submission, hmem, hquiz⟩ := hafter.submitting.mp (Bool.not_eq_false _ ▸ hbusy)
    exact h.quiz_lt hmem hquiz
  | submitted i =>
    intro hopen submission hi
    obtain ⟨lesson, hopen⟩ := Option.ne_none_iff_exists'.mp hopen
    have hstep : s.step (.submitted i) =
        { s with pending := s.pending.eraseIdx i }.quizSubmitted submission := by
      show s.completeSubmission i = _
      unfold completeSubmission
      rw [show s.pending[i]? = some submission from hi]
    rw [hstep] at hafter
    obtain ⟨p, hwritten, -, hhere⟩ := hafter.result lesson hopen submission.result rfl
    cases hwritten
    exact hhere.quiz_eq
  -- the condition asks nothing of the other events
  | _ => exact trivial

end QuizState

/-- **The result on the screen belongs to the quiz on the screen exactly as long as every submission
that completes while a quiz is open was made in it**, and no quiz is opened over a submission. -/
theorem quiz_result_belongs_iff (events : List QuizEvent) :
    (∀ es, es <+: events → (run QuizState.step initialQuiz es).BelongsToQuiz) ↔
      StepsMeet QuizState.step QuizState.KeepsQuiz initialQuiz events :=
  forall_prefix_iff_stepsMeet_of_invariant (I := QuizState.QuizInv)
    (J := QuizState.BelongsToQuiz) (fun _ h => h.toBelongsToQuiz)
    (fun _ e h hkeeps => h.step e hkeeps)
    (fun _ e h hafter => QuizState.keepsQuiz_of_belongsToQuiz h e hafter)
    QuizState.quizInv_initialQuiz

/-- **A result is shown in another quiz.** The first quiz is closed while its answer is being
submitted, and the result is written when the second one is open. -/
theorem stale_quiz_result :
    let lesson (core : CoreLesson) : LessonResponse :=
      { core with createdBy := "system", createdAt := 0, completed := false, score := none }
    ¬ (run QuizState.step initialQuiz
      [.start (lesson dailyConversation), .select "Absolutely, let us do that", .submit, .close,
        .start (lesson smallTalk), .submitted 0]).BelongsToQuiz := by
  intro lesson h
  obtain ⟨submission, hwritten, -, hhere⟩ :=
    h.result (lesson smallTalk) rfl ⟨true, 100, "Absolutely, let us do that"⟩ rfl
  -- the submission was made in the first quiz, and the second one is open
  cases hwritten
  exact absurd hhere.quiz_eq (by decide)

end LanguageGuru
