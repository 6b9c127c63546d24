import LanguageGuru.Frontend.Rounds

/-!
# Progress of the interview simulation

An open simulation never gets stuck. Until it is complete, either its timer runs, or a submission is
pending whose completion takes it to the next round; and while the user neither leaves nor restarts
it, a bounded number of ticks and completions completes it. Both hold in every run, those included
in which rounds are submitted twice or recorded in the wrong simulation.

## Main definitions

* `SimulationState.Alive`: what keeps an open simulation going
* `SimulationState.drives`: the events that bring a simulation on
* `SimulationState.remaining`: a bound on the number of such events until it is complete

## Main results

* `alive_step`: every event keeps the simulation going
* `remaining_step`: an event that brings the simulation on lowers the bound
* `simulation_completes`: an open simulation is never stuck, and it completes within the bound
-/

namespace LanguageGuru

open Process

namespace SimulationState

/-- What keeps an open simulation going: its timer runs while there is time left, and afterwards a
submission is pending. A timer that submits in its last second submits the current round, unless a
submission was pending when it was set. -/
structure Alive (s : SimulationState) : Prop where
  timer : s.showsRound = true → 0 < s.timeLeft → s.timer.isSome = true
  expired : s.showsRound = true → s.timeLeft = 0 → s.pending ≠ []
  submitting : s.isSubmittingRound = true → s.pending ≠ []
  shows : ∀ r ∈ s.timer, s.showsRound = true ∧ 0 < s.timeLeft
  seen : ∀ r ∈ s.timer, r.isSubmittingRound = true → s.pending ≠ []
  current : ∀ r ∈ s.timer, s.timeLeft ≤ 1 → r.currentSimulationRound = s.currentSimulationRound

/-- The event brings the simulation on: its timer ticks, or a submission completes. -/
def drives (s : SimulationState) : SimulationEvent → Bool
  | .tick => s.timer.isSome
  | .submitted i => i < s.pending.length
  | _ => false

/-- A bound on the number of ticks and completions until the simulation is complete: those of the
current round, and for every later round all its seconds and the completion of its submission. -/
def remaining (s : SimulationState) : ℕ :=
  (s.simulationRounds.length - (s.currentRound + 1)) * (simulationDurationSeconds + 1) +
    (s.timeLeft + 1)

/-- The number of events that bring the simulation on. -/
def driven (ctx : ScreenContext) : SimulationState → List SimulationEvent → ℕ
  | _, [] => 0
  | s, e :: es => (if s.drives e then 1 else 0) + driven ctx (s.step ctx e) es

end SimulationState

/-- The user neither leaves the simulation nor restarts it. -/
def SimulationEvent.stays : SimulationEvent → Bool
  | .start _ => false
  | .exit => false
  | _ => true

namespace SimulationState

variable {s s' : SimulationState}

/-! ## What keeps a simulation going -/

theorem showsRound_eq_true : s.showsRound = true ↔
    s.simulationVisible = true ∧ s.currentRound < s.simulationRounds.length := by
  cases hv : s.simulationVisible <;> simp [showsRound, isSimulationComplete, hv]

/-- The effect sets the timer of a simulation that shows a round and has time left. -/
theorem timerEffect_eq (s : SimulationState) :
    s.timerEffect = if s.showsRound = true ∧ 0 < s.timeLeft then some s.render else none := by
  unfold timerEffect showsRound
  cases s.simulationVisible <;> cases s.isSimulationComplete <;> simp
  by_cases h : s.timeLeft = 0 <;> simp [h, Nat.pos_iff_ne_zero]

/-- The screen is rendered: when the effect runs again, the timer has the values of this render. -/
theorem alive_rerender (hexpired : s'.showsRound = true → s'.timeLeft = 0 → s'.pending ≠ [])
    (hsubmitting : s'.isSubmittingRound = true → s'.pending ≠ [])
    (hsame : s'.dependencies = s.dependencies → s'.Alive) : (s.rerender s').Alive := by
  unfold rerender
  split
  · rename_i heq
    exact hsame heq
  · have hset : ∀ r ∈ s'.timerEffect, (s'.showsRound = true ∧ 0 < s'.timeLeft) ∧ r = s'.render := by
      intro r hr
      rw [timerEffect_eq] at hr
      split_ifs at hr with h
      · exact ⟨h, (Option.some.inj hr).symm⟩
      · cases hr
    exact
      { timer := fun hshows htime => by
          show s'.timerEffect.isSome = true
          rw [timerEffect_eq, if_pos ⟨hshows, htime⟩]
          rfl
        expired := hexpired
        submitting := hsubmitting
        shows := fun r hr => (hset r hr).1
        seen := fun r hr hbusy => by
          rw [(hset r hr).2] at hbusy
          exact hsubmitting hbusy
        current := fun r hr _ => by
          rw [(hset r hr).2]
          rfl }

/-- `handleSimulationSubmit` does nothing without a round or during a submission, and otherwise
submits the round. -/
theorem handleSimulationSubmit_cases (s : SimulationState) (ctx : ScreenContext) (r : Render)
    (autoSubmit : Bool) :
    (s.handleSimulationSubmit ctx r autoSubmit = s ∧
      (r.currentSimulationRound = none ∨ r.isSubmittingRound = true)) ∨
    ∃ round, s.handleSimulationSubmit ctx r autoSubmit =
      s.submitRound ctx round r.answerText autoSubmit := by
  unfold handleSimulationSubmit
  cases r.currentSimulationRound with
  | none => exact .inl ⟨rfl, .inl rfl⟩
  | some round =>
    dsimp only
    split_ifs with hbusy
    · exact .inl ⟨rfl, .inr hbusy⟩
    · exact .inr ⟨round, rfl⟩

theorem pending_submitRound (ctx : ScreenContext) (round : InterviewRound) (answerText : String)
    (autoSubmit : Bool) : (s.submitRound ctx round answerText autoSubmit).pending ≠ [] :=
  List.append_ne_nil_of_right_ne_nil _ (List.cons_ne_nil _ _)

/-- A submission keeps the simulation going, and so does one that is not made. -/
theorem Alive.handleSimulationSubmit (h : s.Alive) (ctx : ScreenContext) (r : Render)
    (autoSubmit : Bool) : (s.handleSimulationSubmit ctx r autoSubmit).Alive := by
  rcases s.handleSimulationSubmit_cases ctx r autoSubmit with ⟨heq, -⟩ | ⟨round, heq⟩
  · rw [heq]
    exact h
  · have hpending := pending_submitRound (s := s) ctx round r.answerText autoSubmit
    rw [heq]
    exact ⟨h.timer, fun _ _ => hpending, fun _ => hpending, h.shows, fun _ _ _ => hpending,
      h.current⟩

theorem Alive.changeText (h : s.Alive) (text : String) : (s.changeText text).Alive := by
  unfold SimulationState.changeText
  split
  · exact ⟨h.timer, h.expired, h.submitting, h.shows, h.seen, h.current⟩
  · exact h

theorem Alive.pressSubmit (h : s.Alive) (ctx : ScreenContext) : (s.pressSubmit ctx).Alive := by
  unfold SimulationState.pressSubmit
  split
  · exact h.handleSimulationSubmit ctx s.render false
  · exact h

/-- An event after which the simulation has time left, if the effect does not run again. -/
theorem Alive.rerender_of_time (h : s.Alive) (htime : 0 < s'.timeLeft)
    (hpending : s'.pending = s.pending) (hbusy : s'.isSubmittingRound = s.isSubmittingRound)
    (hsame : s'.dependencies = s.dependencies → s'.Alive) : (s.rerender s').Alive := by
  refine alive_rerender (fun _ hzero => absurd hzero htime.ne') (fun hsubmitting => ?_) hsame
  rw [hpending]
  exact h.submitting (hbusy ▸ hsubmitting)

/-- Restarting the simulation. -/
theorem Alive.start (h : s.Alive) (trackLessons : TrackLessons) :
    (s.rerender (s.startInterviewSimulation trackLessons)).Alive := by
  refine h.rerender_of_time (Nat.succ_pos _) rfl rfl fun hsame => ?_
  have hshows : (s.startInterviewSimulation trackLessons).showsRound = s.showsRound := by
    have hvisible := congrArg Prod.fst hsame
    have hcomplete := congrArg (fun d => d.2.1) hsame
    simp only [dependencies] at hvisible hcomplete
    rw [showsRound, showsRound, hvisible, hcomplete]
  have htime : simulationDurationSeconds = s.timeLeft := congrArg (fun d => d.2.2.1) hsame
  have hninety : simulationDurationSeconds = 90 := rfl
  refine ⟨fun hs _ => ?_, fun _ hzero => ?_, h.submitting, fun r hr => ?_, h.seen,
    fun r _ hlast => ?_⟩
  · exact h.timer (hshows ▸ hs) (by omega)
  · exact absurd hzero (show ¬ (90 = 0) by decide)
  · exact ⟨hshows ▸ (h.shows r hr).1, Nat.succ_pos _⟩
  · exact absurd hlast (show ¬ (90 ≤ 1) by decide)

/-- Leaving the simulation. -/
theorem Alive.exit (h : s.Alive) : (s.rerender s.pressExit).Alive := by
  unfold SimulationState.pressExit
  split
  · rename_i hopen
    refine h.rerender_of_time (Nat.succ_pos _) rfl rfl fun hsame => ?_
    have hclosed : false = s.simulationVisible := congrArg Prod.fst hsame
    rw [hopen] at hclosed
    cases hclosed
  · exact alive_rerender h.expired h.submitting fun _ => h

/-- A second passes. A timer that expires leaves a submission pending. -/
theorem Alive.tick (h : s.Alive) (ctx : ScreenContext) : (s.rerender (s.tick ctx)).Alive := by
  unfold SimulationState.tick
  split
  · exact alive_rerender h.expired h.submitting fun _ => h
  · rename_i r htimer
    have hr : r ∈ s.timer := htimer
    obtain ⟨hshows, htime⟩ := h.shows r hr
    split
    · rename_i hlast
      have hpending : (s.handleSimulationSubmit ctx r true).pending ≠ [] := by
        rcases s.handleSimulationSubmit_cases ctx r true with ⟨heq, hnone | hbusy⟩ | ⟨round, heq⟩
        · -- an open simulation that is not complete has a current round
          rw [h.current r hr hlast] at hnone
          have hlt := (showsRound_eq_true.mp hshows).2
          exact absurd (List.getElem?_eq_none_iff.mp hnone) (by omega)
        · rw [heq]
          exact h.seen r hr hbusy
        · rw [heq]
          exact pending_submitRound ctx round r.answerText true
      refine alive_rerender (fun _ _ => hpending) (fun _ => hpending) fun hsame => ?_
      have hzero : 0 = s.timeLeft := congrArg (fun d => d.2.2.1) hsame
      omega
    · rename_i hmore
      refine alive_rerender (fun _ hzero => ?_) h.submitting fun hsame => ?_
      · have hzero' : s.timeLeft - 1 = 0 := hzero
        omega
      · have hdec : s.timeLeft - 1 = s.timeLeft := congrArg (fun d => d.2.2.1) hsame
        omega

/-- A submission completes. -/
theorem Alive.submitted (h : s.Alive) (i : ℕ) : (s.rerender (s.completeSubmission i)).Alive := by
  unfold SimulationState.completeSubmission
  split
  · exact alive_rerender h.expired h.submitting fun _ => h
  · refine alive_rerender (fun _ hzero => ?_) (fun hbusy => nomatch hbusy) fun hsame => ?_
    · exact absurd hzero (show ¬ (90 = 0) by decide)
    · have hround : s.currentRound + 1 = s.currentRound := congrArg (fun d => d.2.2.2) hsame
      omega

/-- **Every event keeps the simulation going.** -/
theorem alive_step (ctx : ScreenContext) (h : s.Alive) (e : SimulationEvent) :
    (s.step ctx e).Alive := by
  cases e with
  | start trackLessons => exact h.start trackLessons
  | type text =>
    have hnext := h.changeText text
    exact alive_rerender hnext.expired hnext.submitting fun _ => hnext
  | submit =>
    have hnext := h.pressSubmit ctx
    exact alive_rerender hnext.expired hnext.submitting fun _ => hnext
  | tick => exact h.tick ctx
  | submitted i => exact h.submitted i
  | exit => exact h.exit

theorem alive_initialSimulation : initialSimulation.Alive :=
  ⟨nofun, nofun, nofun, nofun, nofun, nofun⟩

/-- An open simulation is complete, or its timer runs, or a submission of its is pending. -/
theorem Alive.exists_drives (h : s.Alive) (hopen : s.simulationVisible = true) :
    s.isSimulationComplete = true ∨ s.drives .tick = true ∨ s.drives (.submitted 0) = true := by
  by_cases hcomplete : s.isSimulationComplete = true
  · exact .inl hcomplete
  · have hshows : s.showsRound = true := by simp [showsRound, hopen, hcomplete]
    rcases Nat.eq_zero_or_pos s.timeLeft with hzero | hpos
    · exact .inr (.inr (decide_eq_true (List.length_pos_iff.mpr (h.expired hshows hzero))))
    · exact .inr (.inl (h.timer hshows hpos))

/-! ## The bound -/

/-- What an event leaves of the rounds while the user stays in the simulation, and the seconds that
it takes. -/
structure Advances (s : SimulationState) (e : SimulationEvent) (s' : SimulationState) : Prop where
  visible : s'.simulationVisible = s.simulationVisible
  rounds : s'.simulationRounds = s.simulationRounds
  round_le : s.currentRound ≤ s'.currentRound
  bound : s'.currentRound < s'.simulationRounds.length →
    s'.remaining + (if s.drives e then 1 else 0) ≤ s.remaining

/-- An event that changes neither the round nor the clock, and brings the simulation nowhere. -/
theorem advances_idle {e : SimulationEvent} (hidle : s.drives e = false)
    (hvisible : s'.simulationVisible = s.simulationVisible)
    (hrounds : s'.simulationRounds = s.simulationRounds)
    (hround : s'.currentRound = s.currentRound) (htime : s'.timeLeft = s.timeLeft) :
    Advances s e s' := by
  refine ⟨hvisible, hrounds, hround.ge, fun _ => ?_⟩
  rw [hidle, remaining, remaining, hrounds, hround, htime]
  exact le_refl _

theorem advances_handleSimulationSubmit (ctx : ScreenContext) (r : Render) :
    Advances s .submit (s.handleSimulationSubmit ctx r false) := by
  rcases s.handleSimulationSubmit_cases ctx r false with ⟨heq, -⟩ | ⟨round, heq⟩ <;> rw [heq] <;>
    exact advances_idle rfl rfl rfl rfl rfl

/-- A tick of a running timer takes a second. -/
theorem advances_tick (ctx : ScreenContext) (h : s.Alive) : Advances s .tick (s.tick ctx) := by
  unfold tick
  split
  · rename_i hnone
    exact advances_idle (by simp [drives, hnone]) rfl rfl rfl rfl
  · rename_i r htimer
    have htime := (h.shows r htimer).2
    have hdrives : s.drives .tick = true := by simp [drives, htimer]
    split
    · rename_i hlast
      rcases s.handleSimulationSubmit_cases ctx r true with ⟨heq, -⟩ | ⟨round, heq⟩ <;> rw [heq] <;>
        refine ⟨rfl, rfl, le_refl _, fun _ => ?_⟩ <;>
        rw [hdrives, if_pos rfl, remaining, remaining] <;>
        simp only [submitRound] <;> omega
    · refine ⟨rfl, rfl, le_refl _, fun _ => ?_⟩
      rw [hdrives, if_pos rfl, remaining, remaining]
      simp only
      omega

/-- A completed submission takes a round. -/
theorem advances_completeSubmission (i : ℕ) :
    Advances s (.submitted i) (s.completeSubmission i) := by
  unfold completeSubmission
  split
  · rename_i hnone
    refine advances_idle ?_ rfl rfl rfl rfl
    have hle := List.getElem?_eq_none_iff.mp hnone
    simp [drives, hle]
  · refine ⟨rfl, rfl, Nat.le_succ _, fun hlt => ?_⟩
    have hone : (if s.drives (.submitted i) then 1 else 0) ≤ 1 := by split_ifs <;> omega
    have hlt : s.currentRound + 1 < s.simulationRounds.length := hlt
    -- the next round has all its seconds, and there is one round less after it
    obtain ⟨k, hk⟩ : ∃ k, s.simulationRounds.length - (s.currentRound + 1) = k + 1 :=
      ⟨s.simulationRounds.length - (s.currentRound + 1) - 1, by omega⟩
    have hk' : s.simulationRounds.length - (s.currentRound + 1 + 1) = k := by omega
    simp only [remaining, roundSubmitted, simulationDurationSeconds, hk, hk']
    omega

/-- **An event that brings the simulation on lowers the bound**, and no other raises it. -/
theorem remaining_step (ctx : ScreenContext) (h : s.Alive) {e : SimulationEvent}
    (he : e.stays = true) : Advances s e (s.step ctx e) := by
  obtain ⟨timer, hrender⟩ := rerender_eq s (s.handle ctx e)
  have hhandle : Advances s e (s.handle ctx e) := by
    cases e with
    | start trackLessons => cases he
    | type text =>
      show Advances s _ (s.changeText text)
      unfold changeText
      split <;> exact advances_idle rfl rfl rfl rfl rfl
    | submit =>
      show Advances s _ (s.pressSubmit ctx)
      unfold pressSubmit
      split
      · exact advances_handleSimulationSubmit ctx s.render
      · exact advances_idle rfl rfl rfl rfl rfl
    | tick => exact advances_tick ctx h
    | submitted i => exact advances_completeSubmission i
    | exit => cases he
  rw [step, hrender]
  exact ⟨hhandle.visible, hhandle.rounds, hhandle.round_le, hhandle.bound⟩

/-- A run in which the user stays: the simulation stays open, a complete one stays complete, and
until then the bound covers what has been driven. -/
theorem remaining_run (ctx : ScreenContext) (h : s.Alive) {es : List SimulationEvent}
    (hes : ∀ e ∈ es, e.stays = true) :
    let t := run (step ctx) s es
    t.simulationVisible = s.simulationVisible ∧ t.simulationRounds = s.simulationRounds ∧
      s.currentRound ≤ t.currentRound ∧
      (t.currentRound < t.simulationRounds.length →
        t.remaining + driven ctx s es ≤ s.remaining) := by
  induction es generalizing s with
  | nil => exact ⟨rfl, rfl, le_refl _, fun _ => le_refl _⟩
  | cons e es ih =>
    have hstep := remaining_step ctx h (hes e (by simp))
    obtain ⟨hvisible, hrounds, hround, hbound⟩ :=
      ih (alive_step ctx h e) fun e' he' => hes e' (by simp [he'])
    refine ⟨hvisible.trans hstep.visible, hrounds.trans hstep.rounds,
      hstep.round_le.trans hround, fun hlt => ?_⟩
    have hlater := hbound hlt
    have hnow : (s.step ctx e).currentRound < (s.step ctx e).simulationRounds.length := by
      rw [run_cons, hrounds] at hlt
      exact hround.trans_lt hlt
    have hfirst := hstep.bound hnow
    rw [driven, run_cons]
    omega

end SimulationState

/-- **An open simulation is never stuck, and it completes within the bound.** In every state of a
run, an open simulation is complete, or its timer runs, or a submission is pending. When the user
neither leaves nor restarts it from then on, this stays so, and it is complete after as many ticks
and completions as the bound says: those of a round for each round that is left. -/
theorem simulation_completes (ctx : ScreenContext) (events es : List SimulationEvent)
    (hstays : ∀ e ∈ es, e.stays = true) :
    let s := run (SimulationState.step ctx) initialSimulation events
    s.simulationVisible = true →
    (∀ bs, bs <+: es → let t := run (SimulationState.step ctx) s bs
      t.isSimulationComplete = true ∨ t.drives .tick = true ∨ t.drives (.submitted 0) = true) ∧
    (s.remaining ≤ s.driven ctx es →
      (run (SimulationState.step ctx) s es).isSimulationComplete = true) := by
  intro s hopen
  have hrun : ∀ {t : SimulationState} (bs : List SimulationEvent), t.Alive →
      (run (SimulationState.step ctx) t bs).Alive := fun bs h =>
    run_invariant (I := SimulationState.Alive)
      (fun _ e h => SimulationState.alive_step ctx h e) h bs
  have halive : s.Alive := hrun events SimulationState.alive_initialSimulation
  constructor
  · intro bs hbs t
    have ht : t.Alive := hrun bs halive
    obtain ⟨hvisible, -⟩ :=
      SimulationState.remaining_run ctx halive fun e he => hstays e (hbs.subset he)
    exact ht.exists_drives (hvisible.trans hopen)
  · intro hdriven
    obtain ⟨hvisible, -, -, hbound⟩ := SimulationState.remaining_run ctx halive hstays
    by_contra hnot
    have hshows : (run (SimulationState.step ctx) s es).showsRound = true := by
      rw [SimulationState.showsRound, hvisible, hopen, Bool.eq_false_iff.mpr hnot]
      rfl
    have hsum := hbound (SimulationState.showsRound_eq_true.mp hshows).2
    have hpos : 0 < (run (SimulationState.step ctx) s es).remaining := Nat.succ_pos _
    omega

/-- The time of a simulation of one round runs out, and its submission completes. -/
theorem simulation_runs_out :
    let ctx : ScreenContext := ⟨String.toLower, none⟩
    let lesson : LessonResponse :=
      { introduceYourself with
        createdBy := "system", createdAt := 0, completed := false, score := none }
    let events : List SimulationEvent := [.start ⟨[lesson], List.nodup_singleton _⟩]
    let runsOut : List SimulationEvent := List.replicate 90 .tick ++ [.submitted 0]
    (run (SimulationState.step ctx) (run (SimulationState.step ctx) initialSimulation events)
      runsOut).isSimulationComplete = true := by
  intro ctx lesson events runsOut
  have hstays : ∀ e ∈ runsOut, e.stays = true := by decide +kernel
  have hdriven : (run (SimulationState.step ctx) initialSimulation events).remaining ≤
      (run (SimulationState.step ctx) initialSimulation events).driven ctx runsOut := by
    decide +kernel
  have hcompletes := simulation_completes ctx events runsOut hstays
  exact (hcompletes rfl).2 hdriven

end LanguageGuru
