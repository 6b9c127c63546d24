import LanguageGuru.Frontend.Rounds

/-!
# The text that a round is graded on

A round should be graded on what stands in the answer box when it is submitted. The submit button
uses the values of the latest render, and so grades that text. The timer uses the values of the
render in which its effect ran last. Typing does not run the effect again and every tick does, so
that a round that times out is graded on what stood in the box when its last second began: what is
typed in that second is lost.

## Main definitions

* `SimulationState.graded`: the round that an event submits, and the text that it is graded on
* `SimulationState.GradesBox`: the text is the one in the box
* `WatchedSimulation`: the state with the text that was in the box at the last tick
* `WatchedSimulation.BoxUntouched`: the condition on an event

## Main results

* `pending_handle`: `graded` is what the handlers submit
* `timerReadsBox_step`: in its last second a timer has the text that was in the box at the last tick
* `graded_on_box_iff`: the condition is exact for runs
* `last_second_lost`: text is lost
-/

namespace LanguageGuru

open Process

/-- The round and the text that `handleSimulationSubmit` grades with the values of a render. -/
def Render.graded (r : Render) : Option (InterviewRound × String) :=
  match r.currentSimulationRound with
  | none => none
  | some round => if r.isSubmittingRound then none else some (round, r.answerText)

theorem Render.graded_eq_some {r : Render} {p : InterviewRound × String} :
    r.graded = some p ↔
      r.currentSimulationRound = some p.1 ∧ r.isSubmittingRound = false ∧ p.2 = r.answerText := by
  obtain ⟨round, text⟩ := p
  unfold Render.graded
  cases r.currentSimulationRound with
  | none => simp
  | some round' =>
    cases r.isSubmittingRound with
    | true => simp
    | false => simp [eq_comm]

/-- The event submits without the button. -/
def SimulationEvent.autoSubmit : SimulationEvent → Bool
  | .tick => true
  | _ => false

namespace SimulationState

variable (s : SimulationState)

/-- The round that an event submits, and the text that it is graded on. -/
def graded : SimulationEvent → Option (InterviewRound × String)
  | .submit => if s.canSubmit then s.render.graded else none
  | .tick => if s.timeLeft ≤ 1 then s.timer.bind Render.graded else none
  | _ => none

/-- A round that is submitted is graded on the text in the answer box. -/
def GradesBox (e : SimulationEvent) : Prop := ∀ p ∈ s.graded e, p.2 = s.answerText

instance (e : SimulationEvent) : Decidable (s.GradesBox e) :=
  inferInstanceAs (Decidable (∀ p ∈ s.graded e, p.2 = s.answerText))

variable {s}

/-! ## What is graded is what is submitted -/

theorem handleSimulationSubmit_eq (ctx : ScreenContext) (r : Render) (autoSubmit : Bool) :
    s.handleSimulationSubmit ctx r autoSubmit =
      (r.graded.map fun p => s.submitRound ctx p.1 p.2 autoSubmit).getD s := by
  unfold handleSimulationSubmit Render.graded
  cases r.currentSimulationRound with
  | none => rfl
  | some round =>
    dsimp only
    cases r.isSubmittingRound <;> rfl

/-- The submissions that `handleSimulationSubmit` adds. -/
theorem pending_handleSimulationSubmit (ctx : ScreenContext) (r : Render) (autoSubmit : Bool) :
    (s.handleSimulationSubmit ctx r autoSubmit).pending =
      s.pending ++ (r.graded.map fun p =>
        ⟨s.simulation, roundResult ctx p.1 p.2 autoSubmit⟩).toList := by
  rw [handleSimulationSubmit_eq]
  cases r.graded with
  | none => exact (List.append_nil _).symm
  | some p => rfl

/-- **An event submits the round and the text that `graded` says.** -/
theorem pending_handle (ctx : ScreenContext) {e : SimulationEvent} (he : ∀ i, e ≠ .submitted i) :
    (s.handle ctx e).pending =
      s.pending ++ ((s.graded e).map fun p =>
        ⟨s.simulation, roundResult ctx p.1 p.2 e.autoSubmit⟩).toList := by
  cases e with
  | submitted i => exact absurd rfl (he i)
  | submit =>
    show (s.pressSubmit ctx).pending = _
    unfold pressSubmit graded
    cases s.canSubmit with
    | true => exact pending_handleSimulationSubmit ctx s.render false
    | false => exact (List.append_nil _).symm
  | tick =>
    show (s.tick ctx).pending = _
    unfold tick graded
    cases s.timer with
    | none => simp
    | some r =>
      by_cases hlast : s.timeLeft ≤ 1
      · simp only [if_pos hlast]
        exact pending_handleSimulationSubmit ctx r true
      · simp [if_neg hlast]
  | start trackLessons => exact (List.append_nil _).symm
  | type text =>
    show (s.changeText text).pending = _
    unfold changeText
    split <;> exact (List.append_nil _).symm
  | exit =>
    show s.pressExit.pending = _
    unfold pressExit
    split <;> exact (List.append_nil _).symm

end SimulationState

/-! ## The text in the box at the last tick -/

/-- The state of the simulation, and the text that was in the answer box after the last tick. -/
structure WatchedSimulation where
  state : SimulationState
  boxAtTick : String

def initialWatched : WatchedSimulation := ⟨initialSimulation, ""⟩

namespace WatchedSimulation

def step (ctx : ScreenContext) (w : WatchedSimulation) (e : SimulationEvent) :
    WatchedSimulation where
  state := w.state.step ctx e
  boxAtTick :=
    match e with
    | .tick => (w.state.step ctx e).answerText
    | _ => w.boxAtTick

variable (w : WatchedSimulation)

/-- A timer that expires, and whose render shows a round that is not being submitted, finds the
text in the answer box that was there at the last tick. -/
def BoxUntouched : SimulationEvent → Prop
  | .tick => w.state.timeLeft ≤ 1 →
      (∃ r ∈ w.state.timer, r.currentSimulationRound ≠ none ∧ r.isSubmittingRound = false) →
      w.state.answerText = w.boxAtTick
  | _ => True

/-- In its last second a timer has the text that was in the box at the last tick. -/
def TimerReadsBox : Prop :=
  ∀ r ∈ w.state.timer, w.state.timeLeft ≤ 1 → r.answerText = w.boxAtTick

variable {w}

/-- Nothing is asked of a timer that has all its time left. -/
theorem timerReadsBox_of_full (h : w.state.timeLeft = simulationDurationSeconds) :
    w.TimerReadsBox := by
  intro r _ hlast
  rw [h] at hlast
  exact absurd hlast (by decide)

/-- The timer that the effect sets has the text of the latest render. -/
theorem timerReadsBox_timerEffect {s : SimulationState} {box : String}
    (h : s.timeLeft ≤ 1 → s.answerText = box) :
    TimerReadsBox ⟨{ s with timer := s.timerEffect }, box⟩ := by
  intro r hr hlast
  have hr' : s.timerEffect = some r := hr
  unfold SimulationState.timerEffect at hr'
  split at hr'
  · cases hr'
  · split at hr'
    · cases hr'
    · cases hr'
      exact h hlast

/-- A rendering keeps the timer, or sets it with the text in the box. -/
theorem timerReadsBox_rerender {s s' : SimulationState} {box : String}
    (hkept : s'.dependencies = s.dependencies → TimerReadsBox ⟨s', box⟩)
    (hset : s'.dependencies ≠ s.dependencies → s'.timeLeft ≤ 1 → s'.answerText = box) :
    TimerReadsBox ⟨s.rerender s', box⟩ := by
  unfold SimulationState.rerender
  split
  · rename_i heq
    exact hkept heq
  · rename_i hne
    exact timerReadsBox_timerEffect (hset hne)

/-- A handler that leaves the timer and its dependencies alone. -/
theorem timerReadsBox_frame {s s' : SimulationState} {box : String} (h : TimerReadsBox ⟨s, box⟩)
    (htimer : s'.timer = s.timer) (hdeps : s'.dependencies = s.dependencies) :
    TimerReadsBox ⟨s.rerender s', box⟩ := by
  apply timerReadsBox_rerender
  · intro _ r hr hlast
    have htime : s'.timeLeft = s.timeLeft := congrArg (fun d => d.2.2.1) hdeps
    have hr' : r ∈ s.timer := htimer ▸ hr
    have hlast' : s.timeLeft ≤ 1 := htime ▸ hlast
    exact h r hr' hlast'
  · intro hne
    exact absurd hdeps hne

/-- A handler that starts the clock again. -/
theorem timerReadsBox_restart {s s' : SimulationState} {box : String}
    (h : s'.timeLeft = simulationDurationSeconds) : TimerReadsBox ⟨s.rerender s', box⟩ := by
  apply timerReadsBox_rerender
  · intro _
    exact timerReadsBox_of_full h
  · intro _ hlast
    rw [h] at hlast
    exact absurd hlast (by decide)

/-- **In its last second the timer has the text that was in the box at the last tick**, whatever
happens. -/
theorem timerReadsBox_step (ctx : ScreenContext) (h : w.TimerReadsBox) (e : SimulationEvent) :
    (step ctx w e).TimerReadsBox := by
  cases e with
  | start trackLessons => exact timerReadsBox_restart rfl
  | type text =>
    show TimerReadsBox ⟨w.state.rerender (w.state.changeText text), w.boxAtTick⟩
    unfold SimulationState.changeText
    split
    · exact timerReadsBox_frame h rfl rfl
    · exact timerReadsBox_frame h rfl rfl
  | submit =>
    show TimerReadsBox ⟨w.state.rerender (w.state.pressSubmit ctx), w.boxAtTick⟩
    unfold SimulationState.pressSubmit
    split
    · rw [SimulationState.handleSimulationSubmit_eq]
      cases w.state.render.graded with
      | none => exact timerReadsBox_frame h rfl rfl
      | some p => exact timerReadsBox_frame h rfl rfl
    · exact timerReadsBox_frame h rfl rfl
  | tick =>
    show TimerReadsBox ⟨w.state.rerender (w.state.tick ctx),
      (w.state.rerender (w.state.tick ctx)).answerText⟩
    obtain ⟨timer, hrendered⟩ := SimulationState.rerender_eq w.state (w.state.tick ctx)
    have hbox : (w.state.rerender (w.state.tick ctx)).answerText =
        (w.state.tick ctx).answerText := by
      rw [hrendered]
    rw [hbox]
    apply timerReadsBox_rerender
    · -- a timer that goes on has counted down, so that the effect has run
      intro hsame
      unfold SimulationState.tick at hsame ⊢
      split
      · rename_i htimer
        intro r hr
        exact absurd (htimer.symm.trans hr) (by simp)
      · rename_i r htimer
        split
        · intro r hr
          cases hr
        · rename_i hmore
          simp only [htimer, if_neg hmore] at hsame
          have htime : w.state.timeLeft - 1 = w.state.timeLeft :=
            congrArg (fun d => d.2.2.1) hsame
          omega
    · intro _ _
      rfl
  | submitted i =>
    show TimerReadsBox ⟨w.state.rerender (w.state.completeSubmission i), w.boxAtTick⟩
    unfold SimulationState.completeSubmission
    split
    · exact timerReadsBox_frame h rfl rfl
    · exact timerReadsBox_restart rfl
  | exit =>
    show TimerReadsBox ⟨w.state.rerender w.state.pressExit, w.boxAtTick⟩
    unfold SimulationState.pressExit
    split
    · exact timerReadsBox_restart rfl
    · exact timerReadsBox_frame h rfl rfl

/-- While the timer has the text of the last tick, the condition is exact for an event. -/
theorem gradesBox_iff (h : w.TimerReadsBox) (e : SimulationEvent) :
    w.state.GradesBox e ↔ w.BoxUntouched e := by
  cases e with
  | submit =>
    -- the button grades the text of the latest render
    apply iff_of_true _ trivial
    intro p hp
    have hp' : (if w.state.canSubmit then w.state.render.graded else none) = some p := hp
    split at hp'
    · exact (Render.graded_eq_some.mp hp').2.2
    · cases hp'
  | tick =>
    constructor
    · rintro hgrades hlast ⟨r, hr, hround, hidle⟩
      obtain ⟨round, hround⟩ := Option.ne_none_iff_exists'.mp hround
      have hgraded : w.state.graded .tick = some (round, r.answerText) := by
        have htimer : w.state.timer = some r := hr
        unfold SimulationState.graded
        rw [if_pos hlast, htimer]
        exact Render.graded_eq_some.mpr ⟨hround, hidle, rfl⟩
      rw [← hgrades _ hgraded]
      exact h r hr hlast
    · intro huntouched p hp
      have hp' : (if w.state.timeLeft ≤ 1 then w.state.timer.bind Render.graded else none) =
          some p := hp
      split at hp'
      · rename_i hlast
        obtain ⟨r, hr, hgraded⟩ := Option.bind_eq_some_iff.mp hp'
        obtain ⟨hround, hidle, htext⟩ := Render.graded_eq_some.mp hgraded
        have hbox := huntouched hlast ⟨r, hr, by simp [hround], hidle⟩
        rw [htext, hbox]
        exact h r hr hlast
      · cases hp'
  -- the other events submit nothing
  | _ => exact iff_of_true nofun trivial

end WatchedSimulation

/-- **Rounds are graded on what stands in the answer box exactly as long as no timer expires on a
box that was edited since the last tick.** -/
theorem graded_on_box_iff (ctx : ScreenContext) (events : List SimulationEvent) :
    StepsMeet (SimulationState.step ctx) SimulationState.GradesBox initialSimulation events ↔
      StepsMeet (WatchedSimulation.step ctx) WatchedSimulation.BoxUntouched initialWatched
        events := by
  have hstart : initialWatched.TimerReadsBox := nofun
  have hexact : StepsMeet (WatchedSimulation.step ctx) (fun w e => w.state.GradesBox e)
      initialWatched events ↔
        StepsMeet (WatchedSimulation.step ctx) WatchedSimulation.BoxUntouched initialWatched
          events :=
    stepsMeet_congr (I := WatchedSimulation.TimerReadsBox)
      (fun w e h => WatchedSimulation.timerReadsBox_step ctx h e)
      (fun w e h => WatchedSimulation.gradesBox_iff h e) hstart
  have hseen : StepsMeet (WatchedSimulation.step ctx) (fun w e => w.state.GradesBox e)
      initialWatched events ↔
        StepsMeet (SimulationState.step ctx) SimulationState.GradesBox initialSimulation events :=
    stepsMeet_map (f := WatchedSimulation.state) (D := SimulationState.GradesBox)
      (fun _ _ => rfl)
  exact hseen.symm.trans hexact

/-- **What is typed in the last second is lost.** The answer is typed after the tick that leaves one
second, and the round is graded on the empty text. -/
theorem last_second_lost :
    let ctx : ScreenContext := ⟨String.toLower, none⟩
    let lesson : LessonResponse :=
      { introduceYourself with
        createdBy := "system", createdAt := 0, completed := false, score := none }
    ¬ StepsMeet (SimulationState.step ctx) SimulationState.GradesBox initialSimulation
      (.start ⟨[lesson], List.nodup_singleton _⟩ :: List.replicate 89 .tick ++
        [.type "I led the team.", .tick]) := by
  decide +kernel

end LanguageGuru
