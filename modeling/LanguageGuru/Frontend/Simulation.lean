import LanguageGuru.Frontend.StarResponse
import LanguageGuru.Process.Transition

/-!
# The interview simulation of the home screen

The state of the simulation in the home screen, and what the user, the timer and the network do to
it. An event handler runs to its end and then the screen is rendered: buttons use the values of the
latest render. The timer is set by an effect that runs again only when one of its dependencies
changes, and its callback uses the values of the render in which the effect ran last. A submission
waits for `submitProgress`, which never rejects; submissions complete in any order.

For the accounting of the rounds the state also remembers which simulation it is in, which
simulation each recorded result was submitted in, and every call of `submitProgress`.

## Main definitions

* `SimulationState`: the state, with the timer and the pending submissions
* `startInterviewSimulation`, `closeInterviewSimulation`, `handleSimulationSubmit`: the handlers
* `SimulationEvent`, `SimulationState.step`: what can happen next, and what it does
-/

namespace LanguageGuru

def simulationDurationSeconds : ℕ := 90

/-- An entry of `simulationResults`. -/
structure RoundResult where
  roundId : String
  title : String
  prompt : String
  score : ℚ
  breakdown : Sections ℚ
  feedback : String
  suggestedAnswer : String
  timedOut : Bool
  deriving DecidableEq, Repr

/-- The values of a render that `handleSimulationSubmit` uses. -/
structure Render where
  currentSimulationRound : Option InterviewRound
  isSubmittingRound : Bool
  answerText : String
  deriving DecidableEq, Repr

/-- A call of `handleSimulationSubmit` that waits for `submitProgress`. -/
structure Submission where
  simulation : ℕ
  result : RoundResult
  deriving DecidableEq, Repr

/-- The state of the simulation. `timer` is the interval that the effect has set, with the values
that its callback uses. The last three fields number the simulations and record the simulation of
each result and the round of each call of `submitProgress`. -/
structure SimulationState where
  simulationVisible : Bool
  simulationRounds : List InterviewRound
  currentRound : ℕ
  timeLeft : ℕ
  answerText : String
  simulationResults : List RoundResult
  isSubmittingRound : Bool
  timer : Option Render
  pending : List Submission
  simulation : ℕ
  recordedIn : List ℕ
  calls : List (ℕ × String)
  deriving DecidableEq, Repr

/-- The state when the home screen is mounted. -/
def initialSimulation : SimulationState where
  simulationVisible := false
  simulationRounds := []
  currentRound := 0
  timeLeft := simulationDurationSeconds
  answerText := ""
  simulationResults := []
  isSubmittingRound := false
  timer := none
  pending := []
  simulation := 0
  recordedIn := []
  calls := []

/-- The lessons of the track on the screen. Lessons have distinct ids. -/
structure TrackLessons where
  lessons : List LessonResponse
  nodup_id : (lessons.map fun lesson => lesson.id).Nodup

/-- The context of the screen: case folding, and the role of the user who is signed in. -/
structure ScreenContext where
  toLowerCase : String → String
  role : Option String

namespace SimulationState

variable (s : SimulationState)

def currentSimulationRound : Option InterviewRound := s.simulationRounds[s.currentRound]?

def isSimulationComplete : Bool := s.simulationVisible && s.simulationRounds.length ≤ s.currentRound

/-- The values of the latest render. -/
def render : Render := ⟨s.currentSimulationRound, s.isSubmittingRound, s.answerText⟩

/-! ## The timer effect -/

/-- The dependencies of the timer effect. -/
def dependencies : Bool × Bool × ℕ × ℕ :=
  (s.simulationVisible, s.isSimulationComplete, s.timeLeft, s.currentRound)

/-- The timer that the effect sets. -/
def timerEffect : Option Render :=
  if !s.simulationVisible || s.isSimulationComplete then none
  else if s.timeLeft ≤ 0 then none
  else some s.render

/-- The state `s'` is rendered after `s`: the effect runs again if a dependency changed. -/
def rerender (s' : SimulationState) : SimulationState :=
  if s'.dependencies = s.dependencies then s' else { s' with timer := s'.timerEffect }

/-! ## The handlers -/

def startInterviewSimulation (trackLessons : TrackLessons) : SimulationState :=
  { s with
    simulationRounds := buildInterviewRounds trackLessons.lessons
    currentRound := 0
    timeLeft := simulationDurationSeconds
    answerText := ""
    simulationResults := []
    simulationVisible := true
    simulation := s.simulation + 1
    recordedIn := [] }

def closeInterviewSimulation : SimulationState :=
  { s with
    simulationVisible := false
    simulationRounds := []
    currentRound := 0
    timeLeft := simulationDurationSeconds
    answerText := ""
    simulationResults := []
    recordedIn := [] }

/-- The result of a round. -/
def roundResult (ctx : ScreenContext) (round : InterviewRound) (answerText : String)
    (autoSubmit : Bool) : RoundResult :=
  let evaluation := evaluateStarResponse ctx.toLowerCase answerText round.rubric
  { roundId := round.id
    title := round.title
    prompt := round.prompt
    score := evaluation.score
    breakdown := evaluation.breakdown
    feedback := evaluation.feedback
    suggestedAnswer :=
      buildSuggestedStarAnswer ctx.toLowerCase round.prompt evaluation.missingSections ctx.role
    timedOut := autoSubmit }

/-- `submitProgress` is called for a round, and the handler waits for it. -/
def submitRound (ctx : ScreenContext) (round : InterviewRound) (answerText : String)
    (autoSubmit : Bool) : SimulationState :=
  { s with
    isSubmittingRound := true
    pending := s.pending ++ [⟨s.simulation, roundResult ctx round answerText autoSubmit⟩]
    calls := s.calls ++ [(s.simulation, round.id)] }

/-- `handleSimulationSubmit` up to its `await`, with the values of a render. -/
def handleSimulationSubmit (ctx : ScreenContext) (r : Render) (autoSubmit : Bool) :
    SimulationState :=
  match r.currentSimulationRound with
  | none => s
  | some round => if r.isSubmittingRound then s else s.submitRound ctx round r.answerText autoSubmit

/-- `handleSimulationSubmit` after its `await`. -/
def roundSubmitted (submission : Submission) : SimulationState :=
  { s with
    simulationResults := s.simulationResults ++ [submission.result]
    recordedIn := s.recordedIn ++ [submission.simulation]
    currentRound := s.currentRound + 1
    timeLeft := simulationDurationSeconds
    answerText := ""
    isSubmittingRound := false }

/-- A second has passed: the callback of the timer. -/
def tick (ctx : ScreenContext) : SimulationState :=
  match s.timer with
  | none => s
  | some r =>
    -- the callback submits the answer of the render that set the timer
    if s.timeLeft ≤ 1 then
      { s.handleSimulationSubmit ctx r true with timer := none, timeLeft := 0 }
    else { s with timeLeft := s.timeLeft - 1 }

/-! ## The screen -/

/-- The text input and the submit button are shown. -/
def showsRound : Bool := s.simulationVisible && !s.isSimulationComplete

/-- The submit button is enabled. -/
def canSubmit : Bool := s.showsRound && !(trim s.answerText = "" || s.isSubmittingRound)

def changeText (text : String) : SimulationState :=
  if s.showsRound then { s with answerText := text } else s

def pressSubmit (ctx : ScreenContext) : SimulationState :=
  if s.canSubmit then s.handleSimulationSubmit ctx s.render false else s

def pressExit : SimulationState := if s.simulationVisible then s.closeInterviewSimulation else s

/-- The submission at a position completes. -/
def completeSubmission (i : ℕ) : SimulationState :=
  match s.pending[i]? with
  | none => s
  | some submission => { s with pending := s.pending.eraseIdx i }.roundSubmitted submission

end SimulationState

/-- What can happen next. -/
inductive SimulationEvent where
  | start (trackLessons : TrackLessons)
  | type (text : String)
  | submit
  | tick
  | submitted (i : ℕ)
  | exit

namespace SimulationState

/-- The handler of an event. -/
def handle (ctx : ScreenContext) (s : SimulationState) : SimulationEvent → SimulationState
  | .start trackLessons => s.startInterviewSimulation trackLessons
  | .type text => s.changeText text
  | .submit => s.pressSubmit ctx
  | .tick => s.tick ctx
  | .submitted i => s.completeSubmission i
  | .exit => s.pressExit

/-- The handler runs, and the screen is rendered. -/
def step (ctx : ScreenContext) (s : SimulationState) (e : SimulationEvent) : SimulationState :=
  s.rerender (s.handle ctx e)

end SimulationState

end LanguageGuru
