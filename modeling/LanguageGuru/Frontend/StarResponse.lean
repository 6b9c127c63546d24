import LanguageGuru.Backend.LessonService
import Mathlib.Data.List.Infix

/-!
# Interview rounds and STAR answers

The rounds that the home screen builds from the lessons of the interview track, and how it scores
an answer by its situation, task, action and result. Scores are computed exactly.

## Main definitions

* `InterviewRound`, `buildInterviewRounds`: the rounds
* `evaluateStarResponse`: score, feedback and missing sections of an answer
* `buildSuggestedStarAnswer`: the answer suggested for a round
-/

namespace LanguageGuru

structure InterviewRound where
  id : String
  title : String
  prompt : String
  rubric : Option Rubric
  deriving DecidableEq, Repr

def buildInterviewRounds (interviewLessons : List LessonResponse) : List InterviewRound :=
  interviewLessons.mapIdx fun index lesson =>
    { id := lesson.id
      title := lesson.title
      prompt := orElse (lesson.quiz.head?.map Question.question)
        ("Round " ++ toString (index + 1) ++
          ": Answer clearly with Situation, Task, Action, and Result.")
      rubric := lesson.quiz.head?.bind Question.rubric }

/-- An object with one value for each section of a STAR answer. -/
structure Sections (α : Type) where
  situation : α
  task : α
  action : α
  result : α
  deriving DecidableEq, Repr

/-- `Object.entries`. -/
def Sections.entries {α : Type} (s : Sections α) : List (String × α) :=
  [("situation", s.situation), ("task", s.task), ("action", s.action), ("result", s.result)]

structure Evaluation where
  score : ℚ
  breakdown : Sections ℚ
  feedback : String
  keywordHits : Sections ℕ
  missingSections : List String
  deriving DecidableEq, Repr

/-- `String.prototype.includes`. -/
def includes (s t : String) : Bool := t.toList <:+: s.toList

/-- A regular expression that is an alternative of texts. -/
def testAny (alternatives : List String) (value : String) : Bool :=
  alternatives.any (includes value)

section Evaluation

variable (toLowerCase : String → String)

def countKeywordHits (text : String) (keywords : List String) : ℕ :=
  let value := toLowerCase text
  keywords.foldl
    (fun count keyword =>
      if keyword = "" then count
      else if includes value (toLowerCase keyword) then count + 1 else count) 0

def defaultWeights : Weights := ⟨25, 25, 25, 25⟩

/-- The `checks` of an answer in lower case; a keyword hit matches its section too. -/
def starChecks (value : String) (keywordHits : Sections ℕ) : Sections Bool where
  situation :=
    testAny ["situation", "context", "at my previous", "in my previous", "in my role", "when i was"]
      value || keywordHits.situation > 0
  task :=
    testAny ["task", "goal", "objective", "responsible", "needed to", "was asked to"] value ||
      keywordHits.task > 0
  action :=
    testAny
      (["led", "built", "created", "implemented", "designed", "organized", "coordinated",
        "improved", "analyzed", "launched"].map ("i " ++ ·)) value || keywordHits.action > 0
  result :=
    testAny ["result", "impact", "increased", "reduced", "improved", "achieved", "delivered",
      "saved", "%"] value || value.toList.any Char.isDigit || keywordHits.result > 0

def scaledScore (isMatched : Bool) (weight : ℚ) (hits : ℕ) : ℚ :=
  if !isMatched then 0
  else
    let hitBoost : ℚ := min hits 2 * (15 / 100)
    min (mathRound (weight * (85 / 100 + hitBoost))) weight

/-- `weight || 25`. -/
def weightOr25 (weight : ℚ) : ℚ := if weight = 0 then 25 else weight

/-- The section with the most points, the first one of equals. -/
def strongestSection (breakdown : Sections ℚ) : String :=
  orElse ((breakdown.entries.mergeSort fun a b => b.2 ≤ a.2).head?.map Prod.fst) "action"

def evaluateStarResponse (text : String) (rubric : Option Rubric) : Evaluation :=
  let value := toLowerCase text
  let weights := (rubric.map Rubric.weights).getD defaultWeights
  let keywords := (rubric.map Rubric.keywords).getD ⟨[], [], [], []⟩
  let keywordHits : Sections ℕ :=
    { situation := countKeywordHits toLowerCase value keywords.situation
      task := countKeywordHits toLowerCase value keywords.task
      action := countKeywordHits toLowerCase value keywords.action
      result := countKeywordHits toLowerCase value keywords.result }
  let checks := starChecks value keywordHits
  let breakdown : Sections ℚ :=
    { situation :=
        scaledScore checks.situation (weightOr25 weights.situation) keywordHits.situation
      task := scaledScore checks.task (weightOr25 weights.task) keywordHits.task
      action := scaledScore checks.action (weightOr25 weights.action) keywordHits.action
      result := scaledScore checks.result (weightOr25 weights.result) keywordHits.result }
  let missingSections := (checks.entries.filter fun entry => !entry.2).map Prod.fst
  let missingText :=
    if missingSections.length > 0 then
      "To improve, add clearer " ++ ", ".intercalate missingSections ++ " details."
    else "Great STAR balance across all sections."
  { score := breakdown.situation + breakdown.task + breakdown.action + breakdown.result
    breakdown, keywordHits, missingSections
    feedback :=
      "Strongest section: " ++ strongestSection breakdown ++ ". " ++ missingText ++ " " ++
        "Try to include one measurable outcome to make your answer more convincing." }

/-- The phrases of `buildSuggestedStarAnswer` for a role in lower case. -/
structure RolePhrases where
  situationBase : String
  actionBase : String
  resultBase : String

def rolePhrases (normalizedRole : String) : RolePhrases :=
  if includes normalizedRole "product" then
    { situationBase :=
        "as a product manager working across design, engineering, and business teams"
      actionBase :=
        "I prioritized roadmap outcomes, aligned stakeholders, and drove crisp decision-making"
      resultBase := "we shipped faster and improved activation and retention metrics" }
  else if includes normalizedRole "data" then
    { situationBase := "as a data analyst supporting product and operations decisions"
      actionBase :=
        "I cleaned noisy datasets, built clear dashboards, and translated insights into actions"
      resultBase := "decision quality improved and we reduced reporting delays significantly" }
  else
    { situationBase :=
        "as a software engineer delivering mobile product features under deadlines"
      actionBase :=
        "I designed reliable implementations, improved collaboration, and removed delivery blockers"
      resultBase := "release quality increased and we shipped key milestones earlier" }

/-- An absent role is a professional's. -/
def buildSuggestedStarAnswer (prompt : String) (missingSections : List String)
    (role : Option String) : String :=
  let cue := if prompt = "" then "a common interview challenge" else prompt
  let phrases := rolePhrases (toLowerCase (role.getD "Professional"))
  let emphasis : Sections String :=
    { situation :=
        if missingSections.contains "situation" then
          "In my previous role, we were facing a clear communication gap in a high-priority " ++
          "project."
        else
          "In my previous role " ++ phrases.situationBase ++
          ", I worked in a fast-paced team with clear delivery targets."
      task :=
        if missingSections.contains "task" then
          "My task was to stabilize communication, align stakeholders, and deliver on time."
        else "My task was to keep delivery quality high while meeting strict deadlines."
      action :=
        if missingSections.contains "action" then
          "I introduced a concise daily update format, clarified ownership, and proactively " ++
          "handled blockers."
        else phrases.actionBase ++ ", and executed with measurable checkpoints."
      result :=
        if missingSections.contains "result" then
          "As a result, we improved response time by 30% and delivered the milestone one week " ++
          "early."
        else "As a result, " ++ phrases.resultBase ++ "." }
  " ".intercalate
    ["For the question about " ++ toLowerCase cue ++ ", you can answer like this:",
      emphasis.situation, emphasis.task, emphasis.action, emphasis.result]

end Evaluation

@[simp] theorem map_id_buildInterviewRounds (lessons : List LessonResponse) :
    (buildInterviewRounds lessons).map InterviewRound.id =
      lessons.map fun lesson => lesson.id := by
  refine List.ext_getElem (by simp [buildInterviewRounds]) fun i hi hi' => ?_
  simp [buildInterviewRounds]

end LanguageGuru
