import LanguageGuru.Backend.Content
import LanguageGuru.Frontend.Simulation

/-!
# Round accounting of the interview simulation

While a simulation is open, its results should be those of its rounds so far, and `submitProgress`
should be called at most once for a round. Both can fail. A submission that is pending when the
simulation is left completes into the next one, whose start does not cancel it; and a timer that
expires submits the round again when the submit button was pressed after the timer was set, because
its callback still sees that nothing is being submitted. Nothing else goes wrong: the accounting
holds in every state of a run exactly when neither happens.

## Main definitions

* `SimulationState.RoundsAccounted`: the accounting
* `SimulationState.KeepsRounds`: the condition on an event
* `SimulationState.Bookkeeping`, `SimulationState.TimerFollows`: the invariant

## Main results

* `bookkeeping_handle`, `timerFollows_step`: an event that meets the condition keeps the invariant
* `rounds_accounted_iff`: the condition is exact for runs
* `rounds_miscounted`: both failures happen
-/

namespace LanguageGuru

open Process

namespace SimulationState

variable (s : SimulationState)

/-- The results of an open simulation are those of its rounds so far, each submitted in it, and no
round of a simulation is submitted twice. -/
structure RoundsAccounted : Prop where
  results : s.simulationVisible = true →
    s.simulationResults.map RoundResult.roundId =
      (s.simulationRounds.take s.currentRound).map InterviewRound.id
  submittedHere : s.simulationVisible = true → ∀ n ∈ s.recordedIn, n = s.simulation
  round_le : s.simulationVisible = true → s.currentRound ≤ s.simulationRounds.length
  nodup_calls : s.calls.Nodup

/-- A timer that expires while a round is being submitted was set when it was being submitted
already, and a submission that completes while a simulation is open was made in it. -/
def KeepsRounds : SimulationEvent → Prop
  | .tick => s.timeLeft ≤ 1 → s.isSubmittingRound = true →
      ∀ r ∈ s.timer, r.isSubmittingRound = true
  | .submitted i => s.simulationVisible = true →
      ∀ submission ∈ s.pending[i]?, submission.simulation = s.simulation
  | _ => True

/-- The accounting with what it rests on: rounds have distinct ids, one submission is pending at
most, and a call of `submitProgress` was made for a round that is recorded or being submitted. -/
structure Bookkeeping : Prop extends RoundsAccounted s where
  nodup_rounds : (s.simulationRounds.map InterviewRound.id).Nodup
  pending : (s.isSubmittingRound = false ∧ s.pending = []) ∨
    (s.isSubmittingRound = true ∧ ∃ submission, s.pending = [submission])
  pending_called : ∀ p ∈ s.pending, (p.simulation, p.result.roundId) ∈ s.calls
  pending_round : s.simulationVisible = true → ∀ p ∈ s.pending, p.simulation = s.simulation →
    s.currentSimulationRound.map InterviewRound.id = some p.result.roundId
  calls_le : ∀ call ∈ s.calls, call.1 ≤ s.simulation
  called : s.simulationVisible = true → ∀ id, (s.simulation, id) ∈ s.calls →
    id ∈ (s.simulationRounds.take s.currentRound).map InterviewRound.id ∨
      ∃ p ∈ s.pending, p.simulation = s.simulation ∧ p.result.roundId = id

/-- A timer runs in an open simulation, and in its last second it was set for the current round.
If a round is being submitted since then, it was submitted in this simulation. -/
structure TimerFollows : Prop where
  visible : ∀ r ∈ s.timer, s.simulationVisible = true
  running : ∀ r ∈ s.timer, 0 < s.timeLeft
  round : ∀ r ∈ s.timer, s.timeLeft ≤ 1 → r.currentSimulationRound = s.currentSimulationRound
  submittedHere : ∀ r ∈ s.timer, s.timeLeft ≤ 1 → s.isSubmittingRound = true →
    r.isSubmittingRound = false → ∀ p ∈ s.pending, p.simulation = s.simulation

variable {s} {s' : SimulationState}

/-! ## Rendering -/

theorem rerender_eq (s s' : SimulationState) : ∃ timer, s.rerender s' = { s' with timer } := by
  unfold rerender
  split
  · exact ⟨s'.timer, rfl⟩
  · exact ⟨s'.timerEffect, rfl⟩

/-- The accounting does not look at the clock of the simulation. -/
theorem RoundsAccounted.clock (h : s.RoundsAccounted) (timer : Option Render) (timeLeft : ℕ) :
    { s with timer, timeLeft }.RoundsAccounted :=
  ⟨h.results, h.submittedHere, h.round_le, h.nodup_calls⟩

theorem Bookkeeping.clock (h : s.Bookkeeping) (timer : Option Render) (timeLeft : ℕ) :
    { s with timer, timeLeft }.Bookkeeping :=
  ⟨h.toRoundsAccounted.clock timer timeLeft, h.nodup_rounds, h.pending, h.pending_called,
    h.pending_round, h.calls_le, h.called⟩

theorem roundsAccounted_rerender :
    (s.rerender s').RoundsAccounted ↔ s'.RoundsAccounted := by
  obtain ⟨timer, h⟩ := rerender_eq s s'
  rw [h]
  exact ⟨fun h => h.clock s'.timer s'.timeLeft, fun h => h.clock timer s'.timeLeft⟩

theorem Bookkeeping.rerender (h : s'.Bookkeeping) : (s.rerender s').Bookkeeping := by
  obtain ⟨timer, heq⟩ := rerender_eq s s'
  rw [heq]
  exact h.clock timer s'.timeLeft

/-- A timer that the effect has just set has the values of the latest render. -/
theorem timerFollows_timerEffect : { s with timer := s.timerEffect }.TimerFollows := by
  have hset : ∀ r ∈ s.timerEffect, s.simulationVisible = true ∧ 0 < s.timeLeft ∧ r = s.render := by
    intro r hr
    unfold timerEffect at hr
    split at hr
    · cases hr
    · rename_i hopen
      split at hr
      · cases hr
      · rename_i htime
        cases hr
        simp only [Bool.or_eq_true, Bool.not_eq_true', not_or, Bool.not_eq_false] at hopen
        exact ⟨hopen.1, Nat.pos_of_ne_zero fun h => htime h.le, rfl⟩
  constructor
  · intro r hr
    exact (hset r hr).1
  · intro r hr
    exact (hset r hr).2.1
  · intro r hr _
    rw [(hset r hr).2.2]
    rfl
  · -- the latest render shows a submission that is going on
    intro r hr _ hsubmitting hnot
    rw [(hset r hr).2.2] at hnot
    exact absurd hsubmitting (by simpa [render] using hnot)

/-- The timer has to be looked at only when the effect does not run again. -/
theorem timerFollows_rerender (h : s'.dependencies = s.dependencies → s'.TimerFollows) :
    (s.rerender s').TimerFollows := by
  unfold SimulationState.rerender
  split
  · rename_i heq
    exact h heq
  · exact timerFollows_timerEffect

/-! ## The handlers and the bookkeeping -/

theorem Bookkeeping.startInterviewSimulation (h : s.Bookkeeping) (trackLessons : TrackLessons) :
    (s.startInterviewSimulation trackLessons).Bookkeeping where
  results _ := rfl
  submittedHere _ := by simp [SimulationState.startInterviewSimulation]
  round_le _ := Nat.zero_le _
  nodup_calls := h.nodup_calls
  nodup_rounds := by
    simpa [SimulationState.startInterviewSimulation] using trackLessons.nodup_id
  pending := h.pending
  pending_called := h.pending_called
  pending_round _ p hp hnew := by
    -- a pending submission belongs to an earlier simulation
    have hle : p.simulation ≤ s.simulation := h.calls_le _ (h.pending_called p hp)
    have hnew' : p.simulation = s.simulation + 1 := hnew
    omega
  calls_le call hcall := (h.calls_le call hcall).trans (Nat.le_succ _)
  called _ id hid := by
    have hle : s.simulation + 1 ≤ s.simulation := h.calls_le _ hid
    omega

theorem Bookkeeping.closeInterviewSimulation (h : s.Bookkeeping) :
    s.closeInterviewSimulation.Bookkeeping where
  results _ := rfl
  submittedHere hopen := nomatch hopen
  round_le _ := Nat.zero_le _
  nodup_calls := h.nodup_calls
  nodup_rounds := List.nodup_nil
  pending := h.pending
  pending_called := h.pending_called
  pending_round hopen := nomatch hopen
  calls_le := h.calls_le
  called hopen := nomatch hopen

/-- A round that is not recorded yet has an id that no recorded round has. -/
theorem Bookkeeping.id_notMem_take (h : s.Bookkeeping) {round : InterviewRound}
    (hround : s.currentSimulationRound = some round) :
    round.id ∉ (s.simulationRounds.take s.currentRound).map InterviewRound.id := by
  obtain ⟨hlt, hget⟩ := List.getElem?_eq_some_iff.mp hround
  have hnodup := h.nodup_rounds
  rw [← List.take_append_drop s.currentRound s.simulationRounds, List.map_append] at hnodup
  have hmem : round.id ∈ (s.simulationRounds.drop s.currentRound).map InterviewRound.id := by
    refine List.mem_map_of_mem ?_
    rw [List.drop_eq_getElem_cons hlt, hget]
    exact List.mem_cons_self
  exact fun htake => (List.nodup_append.mp hnodup).2.2 _ htake _ hmem rfl

theorem Bookkeeping.pending_eq_nil (h : s.Bookkeeping) (hidle : s.isSubmittingRound = false) :
    s.pending = [] := by
  rcases h.pending with ⟨-, hnone⟩ | ⟨hbusy, -⟩
  · exact hnone
  · rw [hidle] at hbusy
    cases hbusy

/-- Submitting the current round when none is being submitted. -/
theorem Bookkeeping.submitRound (h : s.Bookkeeping) (ctx : ScreenContext)
    {round : InterviewRound} (hround : s.currentSimulationRound = some round)
    (hidle : s.isSubmittingRound = false) (answerText : String) (autoSubmit : Bool)
    (hopen : s.simulationVisible = true) :
    (s.submitRound ctx round answerText autoSubmit).Bookkeeping := by
  have hnone := h.pending_eq_nil hidle
  -- the round is neither recorded nor under way, so that it was not submitted before
  have hfresh : (s.simulation, round.id) ∉ s.calls := by
    intro hcall
    rcases h.called hopen _ hcall with hrecorded | ⟨p, hp, -⟩
    · exact h.id_notMem_take hround hrecorded
    · rw [hnone] at hp
      cases hp
  have hpending : (s.submitRound ctx round answerText autoSubmit).pending =
      [⟨s.simulation, roundResult ctx round answerText autoSubmit⟩] := by
    simp [SimulationState.submitRound, hnone]
  exact
    { results := h.results
      submittedHere := h.submittedHere
      round_le := h.round_le
      nodup_calls := List.nodup_append.mpr
        ⟨h.nodup_calls, List.nodup_singleton _, fun call hcall call' hcall' heq => by
          rw [List.mem_singleton.mp hcall'] at heq
          exact hfresh (heq ▸ hcall)⟩
      nodup_rounds := h.nodup_rounds
      pending := .inr ⟨rfl, _, hpending⟩
      pending_called := by
        intro p hp
        rw [hpending, List.mem_singleton] at hp
        rw [hp]
        exact List.mem_append_right _ (List.mem_singleton.mpr rfl)
      pending_round := by
        intro _ p hp _
        rw [hpending, List.mem_singleton] at hp
        rw [hp]
        exact congrArg (Option.map InterviewRound.id) hround
      calls_le := by
        intro call hcall
        rcases List.mem_append.mp hcall with hold | hnew
        · exact h.calls_le call hold
        · rw [List.mem_singleton.mp hnew]
          exact Nat.le_refl _
      called := by
        intro _ id hid
        rcases List.mem_append.mp hid with hold | hnew
        · rcases h.called hopen id hold with hrecorded | ⟨p, hp, -⟩
          · exact .inl hrecorded
          · rw [hnone] at hp
            cases hp
        · -- the call just made is the one that is pending
          obtain ⟨-, rfl⟩ := Prod.mk.inj (List.mem_singleton.mp hnew)
          exact .inr ⟨_, hpending ▸ List.mem_singleton.mpr rfl, rfl, rfl⟩ }

/-- `handleSimulationSubmit` with a render that shows the current round, and shows a submission
that is going on. -/
theorem Bookkeeping.handleSimulationSubmit (h : s.Bookkeeping) (ctx : ScreenContext) {r : Render}
    (hround : r.currentSimulationRound = s.currentSimulationRound)
    (hbusy : s.isSubmittingRound = true → r.isSubmittingRound = true)
    (hopen : s.simulationVisible = true) (autoSubmit : Bool) :
    (s.handleSimulationSubmit ctx r autoSubmit).Bookkeeping := by
  unfold SimulationState.handleSimulationSubmit
  cases hr : r.currentSimulationRound with
  | none => exact h
  | some round =>
    dsimp only
    split
    · exact h
    · rename_i hnot
      have hidle : s.isSubmittingRound = false := Bool.eq_false_iff.mpr fun hb => hnot (hbusy hb)
      exact h.submitRound ctx (hround.symm.trans hr) hidle _ _ hopen

/-- The submission of the current simulation completes, or any submission while none is open. -/
theorem Bookkeeping.roundSubmitted (h : s.Bookkeeping) {submission : Submission}
    (hpending : s.pending = [submission])
    (hhere : s.simulationVisible = true → submission.simulation = s.simulation) :
    ({ s with pending := [] }.roundSubmitted submission).Bookkeeping := by
  have hmem : submission ∈ s.pending := by
    rw [hpending]
    exact List.mem_singleton.mpr rfl
  -- the round that is recorded is the current one
  have hround : s.simulationVisible = true →
      ∃ round, s.simulationRounds[s.currentRound]? = some round ∧
        round.id = submission.result.roundId := by
    intro hopen
    have hid := h.pending_round hopen submission hmem (hhere hopen)
    exact Option.map_eq_some_iff.mp hid
  exact
    { results := by
        intro hopen
        obtain ⟨round, hget, hid⟩ := hround hopen
        change (s.simulationResults ++ [submission.result]).map RoundResult.roundId =
          (s.simulationRounds.take (s.currentRound + 1)).map InterviewRound.id
        rw [List.take_add_one, hget, List.map_append, List.map_append, h.results hopen]
        simp [hid]
      submittedHere := by
        intro hopen n hn
        rcases List.mem_append.mp hn with hold | hnew
        · exact h.submittedHere hopen n hold
        · rw [List.mem_singleton.mp hnew]
          exact hhere hopen
      round_le := by
        intro hopen
        obtain ⟨round, hget, -⟩ := hround hopen
        exact (List.getElem?_eq_some_iff.mp hget).1
      nodup_calls := h.nodup_calls
      nodup_rounds := h.nodup_rounds
      pending := .inl ⟨rfl, rfl⟩
      pending_called := fun p hp => nomatch hp
      pending_round := fun _ p hp => nomatch hp
      calls_le := h.calls_le
      called := by
        intro hopen id hid
        obtain ⟨round, hget, hround⟩ := hround hopen
        refine .inl ?_
        change id ∈ (s.simulationRounds.take (s.currentRound + 1)).map InterviewRound.id
        rw [List.take_add_one, hget, List.map_append]
        rcases h.called hopen id hid with hrecorded | ⟨p, hp, -, rfl⟩
        · exact List.mem_append_left _ hrecorded
        · -- the only pending submission is the one that is recorded now
          rw [hpending, List.mem_singleton] at hp
          rw [hp]
          exact List.mem_append_right _ (by simp [hround]) }

/-- A submission that completes is the only one. -/
theorem Bookkeeping.completeSubmission (h : s.Bookkeeping) {i : ℕ}
    (hkeeps : s.KeepsRounds (.submitted i)) : (s.completeSubmission i).Bookkeeping := by
  unfold SimulationState.completeSubmission
  cases hi : s.pending[i]? with
  | none => exact h
  | some submission =>
    have hhere : s.simulationVisible = true → submission.simulation = s.simulation :=
      fun hopen => hkeeps hopen submission hi
    rcases h.pending with ⟨-, hnone⟩ | ⟨-, p, hone⟩
    · rw [hnone] at hi
      cases hi
    · -- the one pending submission is at position zero
      have hzero : i = 0 := by
        have hlt := (List.getElem?_eq_some_iff.mp hi).1
        rw [hone, List.length_singleton] at hlt
        omega
      subst hzero
      have hp : p = submission := by
        rw [hone] at hi
        exact Option.some.inj hi
      subst hp
      have herase : s.pending.eraseIdx 0 = [] := by rw [hone]; rfl
      dsimp only
      rw [herase]
      exact h.roundSubmitted hone hhere

theorem Bookkeeping.changeText (h : s.Bookkeeping) (text : String) :
    (s.changeText text).Bookkeeping := by
  unfold SimulationState.changeText
  split
  · exact ⟨⟨h.results, h.submittedHere, h.round_le, h.nodup_calls⟩, h.nodup_rounds, h.pending,
      h.pending_called, h.pending_round, h.calls_le, h.called⟩
  · exact h

theorem Bookkeeping.pressSubmit (h : s.Bookkeeping) (ctx : ScreenContext) :
    (s.pressSubmit ctx).Bookkeeping := by
  unfold SimulationState.pressSubmit
  split
  · rename_i hcan
    simp only [canSubmit, showsRound, Bool.and_eq_true] at hcan
    exact h.handleSimulationSubmit ctx rfl (fun hbusy => hbusy) hcan.1.1 false
  · exact h

theorem Bookkeeping.pressExit (h : s.Bookkeeping) : s.pressExit.Bookkeeping := by
  unfold SimulationState.pressExit
  split
  · exact h.closeInterviewSimulation
  · exact h

/-- The timer submits with the render it was set in. -/
theorem Bookkeeping.tick (h : s.Bookkeeping) (ht : s.TimerFollows) (ctx : ScreenContext)
    (hkeeps : s.KeepsRounds .tick) : (s.tick ctx).Bookkeeping := by
  unfold SimulationState.tick
  split
  · exact h
  · rename_i r htimer
    split
    · rename_i hlast
      refine Bookkeeping.clock ?_ none 0
      exact h.handleSimulationSubmit ctx (ht.round r htimer hlast)
        (fun hbusy => hkeeps hlast hbusy r htimer) (ht.visible r htimer) true
    · exact h.clock s.timer (s.timeLeft - 1)

/-- **The bookkeeping is kept** by the events that meet the condition. -/
theorem bookkeeping_handle (ctx : ScreenContext) (h : s.Bookkeeping) (ht : s.TimerFollows)
    (e : SimulationEvent) (hkeeps : s.KeepsRounds e) : (s.handle ctx e).Bookkeeping := by
  cases e with
  | start trackLessons => exact h.startInterviewSimulation trackLessons
  | type text => exact h.changeText text
  | submit => exact h.pressSubmit ctx
  | tick => exact h.tick ht ctx hkeeps
  | submitted i => exact h.completeSubmission hkeeps
  | exit => exact h.pressExit

/-! ## The timer -/

/-- While a round is submitted from the screen, the timer that was set before does not see it. -/
theorem TimerFollows.pressSubmit (ht : s.TimerFollows) (h : s.Bookkeeping) (ctx : ScreenContext) :
    (s.pressSubmit ctx).TimerFollows := by
  unfold SimulationState.pressSubmit
  split
  · rename_i hcan
    have hidle : s.isSubmittingRound = false := by
      simp only [canSubmit, Bool.and_eq_true, Bool.not_eq_true', Bool.or_eq_false_iff] at hcan
      exact hcan.2.2
    have hnone := h.pending_eq_nil hidle
    unfold handleSimulationSubmit
    cases s.render.currentSimulationRound with
    | none => exact ht
    | some round =>
      dsimp only
      split
      · exact ht
      · -- the submission that starts here belongs to the open simulation
        refine ⟨ht.visible, ht.running, ht.round, fun r hr hlast _ _ p hp => ?_⟩
        simp only [submitRound, hnone, List.nil_append, List.mem_singleton] at hp
        rw [hp]
        rfl
  · exact ht

theorem TimerFollows.changeText (ht : s.TimerFollows) (text : String) :
    (s.changeText text).TimerFollows := by
  unfold SimulationState.changeText
  split
  · exact ⟨ht.visible, ht.running, ht.round, ht.submittedHere⟩
  · exact ht

/-- The effect runs again after every tick of a timer that goes on. -/
theorem TimerFollows.tick (ht : s.TimerFollows) (ctx : ScreenContext)
    (hsame : (s.tick ctx).dependencies = s.dependencies) : (s.tick ctx).TimerFollows := by
  unfold SimulationState.tick at hsame ⊢
  split
  · exact ht
  · rename_i r htimer
    split
    · -- the timer has expired
      exact ⟨nofun, nofun, nofun, nofun⟩
    · rename_i hmore
      simp only [htimer, if_neg hmore] at hsame
      have htime : s.timeLeft - 1 = s.timeLeft := congrArg (fun d => d.2.2.1) hsame
      omega

/-- The effect runs again after every submission. -/
theorem TimerFollows.completeSubmission (ht : s.TimerFollows) {i : ℕ}
    (hsame : (s.completeSubmission i).dependencies = s.dependencies) :
    (s.completeSubmission i).TimerFollows := by
  unfold SimulationState.completeSubmission at hsame ⊢
  split
  · exact ht
  · rename_i submission hi
    simp only [hi] at hsame
    have hround : s.currentRound + 1 = s.currentRound := congrArg (fun d => d.2.2.2) hsame
    omega

/-- The effect runs again when a simulation is left. -/
theorem TimerFollows.pressExit (ht : s.TimerFollows)
    (hsame : s.pressExit.dependencies = s.dependencies) : s.pressExit.TimerFollows := by
  unfold SimulationState.pressExit at hsame ⊢
  split
  · rename_i hopen
    rw [if_pos hopen] at hsame
    have hclosed : false = s.simulationVisible := congrArg Prod.fst hsame
    rw [hopen] at hclosed
    cases hclosed
  · exact ht

/-- A new simulation has more than a second left. -/
theorem timerFollows_startInterviewSimulation (trackLessons : TrackLessons) :
    (s.startInterviewSimulation trackLessons).TimerFollows where
  visible _ _ := rfl
  running _ _ := Nat.succ_pos _
  round _ _ hlast := absurd hlast (show ¬ (90 ≤ 1) by decide)
  submittedHere _ _ hlast := absurd hlast (show ¬ (90 ≤ 1) by decide)

/-- **The timer follows the simulation**: an event that changes what it depends on sets it again. -/
theorem timerFollows_step (ctx : ScreenContext) (h : s.Bookkeeping) (ht : s.TimerFollows)
    (e : SimulationEvent) : (s.step ctx e).TimerFollows := by
  refine timerFollows_rerender fun hsame => ?_
  cases e with
  | start trackLessons => exact timerFollows_startInterviewSimulation trackLessons
  | type text => exact ht.changeText text
  | submit => exact ht.pressSubmit h ctx
  | tick => exact ht.tick ctx hsame
  | submitted i => exact ht.completeSubmission hsame
  | exit => exact ht.pressExit hsame

/-! ## Runs -/

/-- The invariant of runs whose events meet the condition. -/
structure RoundsInv (s : SimulationState) : Prop where
  bookkeeping : s.Bookkeeping
  timer : s.TimerFollows

theorem roundsInv_initialSimulation : RoundsInv initialSimulation where
  bookkeeping :=
    { results := fun hopen => nomatch hopen
      submittedHere := fun hopen => nomatch hopen
      round_le := fun hopen => nomatch hopen
      nodup_calls := List.nodup_nil
      nodup_rounds := List.nodup_nil
      pending := .inl ⟨rfl, rfl⟩
      pending_called := nofun
      pending_round := fun hopen => nomatch hopen
      calls_le := nofun
      called := fun hopen => nomatch hopen }
  timer := ⟨nofun, nofun, nofun, nofun⟩

theorem RoundsInv.step (ctx : ScreenContext) (h : s.RoundsInv) (e : SimulationEvent)
    (hkeeps : s.KeepsRounds e) : (s.step ctx e).RoundsInv where
  bookkeeping := (bookkeeping_handle ctx h.bookkeeping h.timer e hkeeps).rerender
  timer := timerFollows_step ctx h.bookkeeping h.timer e

/-- A timer that does not see the submission of its round submits it again. -/
theorem keepsRounds_tick (ctx : ScreenContext) (h : s.RoundsInv)
    (hafter : (s.tick ctx).RoundsAccounted) : s.KeepsRounds .tick := by
  intro hlast hbusy r hr
  by_contra hunseen
  rw [Bool.not_eq_true] at hunseen
  rcases h.bookkeeping.pending with ⟨hidle, -⟩ | ⟨-, p, hpending⟩
  · rw [hidle] at hbusy
    cases hbusy
  -- the submission that the timer does not see is one of the current round
  have hp : p ∈ s.pending := hpending ▸ List.mem_singleton.mpr rfl
  have hhere := h.timer.submittedHere r hr hlast hbusy hunseen p hp
  have hid := h.bookkeeping.pending_round (h.timer.visible r hr) p hp hhere
  obtain ⟨round, hround, hround_id⟩ := Option.map_eq_some_iff.mp hid
  have hcalled : (s.simulation, round.id) ∈ s.calls := by
    rw [hround_id, ← hhere]
    exact h.bookkeeping.pending_called p hp
  -- the expiring timer submits that round once more
  have hcalls : (s.tick ctx).calls = s.calls ++ [(s.simulation, round.id)] := by
    have htimer : s.timer = some r := hr
    have hr' := (h.timer.round r hr hlast).trans hround
    simp [tick, htimer, hlast, handleSimulationSubmit, hr', hunseen, submitRound]
  have hnodup := hafter.nodup_calls
  rw [hcalls] at hnodup
  exact (List.nodup_append.mp hnodup).2.2 _ hcalled _ (List.mem_singleton.mpr rfl) rfl

/-- A submission that completes into another simulation is recorded there. -/
theorem keepsRounds_submitted {i : ℕ} (hafter : (s.completeSubmission i).RoundsAccounted) :
    s.KeepsRounds (.submitted i) := by
  intro hopen submission hi
  have hpending : s.pending[i]? = some submission := hi
  rw [completeSubmission, hpending] at hafter
  exact hafter.submittedHere hopen _ (List.mem_append_right _ (List.mem_singleton.mpr rfl))

/-- An event that does not meet the condition breaks the accounting. -/
theorem keepsRounds_of_roundsAccounted (ctx : ScreenContext) (h : s.RoundsInv)
    (e : SimulationEvent) (hafter : (s.step ctx e).RoundsAccounted) : s.KeepsRounds e := by
  have hafter' : (s.handle ctx e).RoundsAccounted := roundsAccounted_rerender.mp hafter
  cases e with
  | tick => exact keepsRounds_tick ctx h hafter'
  | submitted i => exact keepsRounds_submitted hafter'
  -- the condition asks nothing of the other events
  | _ => exact trivial

end SimulationState

/-- **The rounds are accounted for exactly as long as no event breaks the condition.** In every
state of a run of the simulation the results of an open simulation are those of its rounds so far
and no round is submitted twice, if and only if no timer expires that was set before the submission
of the round, and no submission of an earlier simulation completes while a simulation is open. -/
theorem rounds_accounted_iff (ctx : ScreenContext) (events : List SimulationEvent) :
    (∀ es, es <+: events →
      (run (SimulationState.step ctx) initialSimulation es).RoundsAccounted) ↔
      StepsMeet (SimulationState.step ctx) SimulationState.KeepsRounds initialSimulation events :=
  forall_prefix_iff_stepsMeet_of_invariant (I := SimulationState.RoundsInv)
    (J := SimulationState.RoundsAccounted) (fun _ h => h.bookkeeping.toRoundsAccounted)
    (fun _ e h hkeeps => h.step ctx e hkeeps)
    (fun _ e h hafter => SimulationState.keepsRounds_of_roundsAccounted ctx h e hafter)
    SimulationState.roundsInv_initialSimulation

/-- **Both failures happen.** A round that was submitted before the simulation was left is recorded
in the next one, and a timer that expires in the second after the submit button was pressed submits
the round again. -/
theorem rounds_miscounted :
    let ctx : ScreenContext := ⟨String.toLower, none⟩
    let lesson : LessonResponse :=
      { introduceYourself with
        createdBy := "system", createdAt := 0, completed := false, score := none }
    let start : SimulationEvent := .start ⟨[lesson], List.nodup_singleton _⟩
    let restarted := [start, .type "I led the team.", .submit, .exit, start, .submitted 0]
    let expiring := start :: .type "I led the team." :: List.replicate 89 .tick ++ [.submit, .tick]
    ¬ (run (SimulationState.step ctx) initialSimulation restarted).RoundsAccounted ∧
      ¬ (run (SimulationState.step ctx) initialSimulation expiring).RoundsAccounted := by
  intro ctx lesson start restarted expiring
  constructor
  · -- the submission of the first simulation is recorded in the second
    intro h
    have hopen : (run (SimulationState.step ctx) initialSimulation restarted).simulationVisible =
        true := by decide +kernel
    have hleft : ¬ ∀ n ∈ (run (SimulationState.step ctx) initialSimulation restarted).recordedIn,
        n = (run (SimulationState.step ctx) initialSimulation restarted).simulation := by
      decide +kernel
    exact hleft (h.submittedHere hopen)
  · -- the button is pressed in the last second, and the timer was set before it
    intro h
    have htwice : ¬ (run (SimulationState.step ctx) initialSimulation expiring).calls.Nodup := by
      decide +kernel
    exact htwice h.nodup_calls

end LanguageGuru
