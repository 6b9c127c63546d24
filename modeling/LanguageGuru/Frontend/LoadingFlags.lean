import LanguageGuru.Frontend.UserText

/-!
# The flags of the lessons

The lessons slice has one loading flag and one error for two kinds of requests. The flag should be
set while lessons are being fetched, and the error when the latest fetch of one of the two lists has
failed. Every response to a fetch of lessons and every failure clears the flag, and every success
clears the error, whatever else is in flight or has failed. So the flags can be wrong, and the
condition says when they are right.

## Main definitions

* `FetchEvent`: a fetch is dispatched, or a response arrives
* `WatchedFetches`: the client with the latest fetch of each kind and the fetches that failed
* `WatchedFetches.FlagsFaithful`: the flags say what goes on
* `WatchedFetches.KeepsFlags`: the condition on an event

## Main results

* `flagsFaithful_answered_iff`: the condition is exact for a response
* `loading_flags_faithful_iff`: it is exact for runs
* `failure_hidden_by_progress`, `loading_hidden_by_answer`: both flags can be wrong
-/

namespace LanguageGuru

open Process

/-- The thunk waits for the response to a call. -/
def Thunk.awaits (call : ApiCall) : Thunk → Bool
  | .awaitingApi c _ => c = call
  | _ => false

/-- A call that the client waits for. -/
def Client.inFlight (c : Client) (call : ApiCall) : Bool := c.thunks.any (Thunk.awaits call)

/-- A client that loads nothing and waits for no response to a request with a token. -/
structure IdleClient where
  client : Client
  loaded : client.state.lessons.isLoading = false
  answered : ∀ t ∈ client.thunks, t.awaitsApi = false

/-- The lists are fetched, when the screen is mounted or pulled, and responses arrive. -/
inductive FetchEvent where
  | fetchLessons
  | fetchProgress
  | answered (thunk : ℕ) (answer : Except String ResponseData)

def FetchEvent.toClientEvent : FetchEvent → ClientEvent
  | .fetchLessons => .fetchLessons
  | .fetchProgress => .fetchProgress
  | .answered i answer => .apiAnswered i answer

/-- The client, the thunks of the fetches issued last, and the thunks whose fetch failed. -/
structure WatchedFetches where
  client : Client
  lastLessons : Option ℕ
  lastProgress : Option ℕ
  failed : List ℕ

/-- Nothing has been fetched yet. -/
def IdleClient.watched (c : IdleClient) : WatchedFetches := ⟨c.client, none, none, []⟩

namespace WatchedFetches

/-- The fetches that failed, after a response to a thunk. -/
def failedAfter (w : WatchedFetches) (i : ℕ) : Except String ResponseData → List ℕ
  | .ok _ => w.failed
  | .error _ => if (w.client.thunks[i]?).any Thunk.awaitsApi then i :: w.failed else w.failed

/-- A fetch is issued, or a response arrives. -/
def step (J : UserJson) (w : WatchedFetches) (e : FetchEvent) : WatchedFetches :=
  let client := w.client.step J e.toClientEvent
  match e with
  | .fetchLessons => { w with client, lastLessons := some w.client.thunks.length }
  | .fetchProgress => { w with client, lastProgress := some w.client.thunks.length }
  | .answered i answer => { w with client, failed := w.failedAfter i answer }

variable (w : WatchedFetches)

/-- No fetch is in flight. -/
def Quiet : Prop :=
  w.client.inFlight .fetchLessons = false ∧ w.client.inFlight .fetchProgress = false

/-- The fetch of one of the lists that was issued last has failed. -/
def LatestFailed : Prop := (∃ i ∈ w.lastLessons, i ∈ w.failed) ∨ ∃ i ∈ w.lastProgress, i ∈ w.failed

/-- The lessons are marked as loading while they are fetched, and when nothing is in flight there is
an error if a latest fetch failed. -/
structure FlagsFaithful : Prop where
  loading : w.client.state.lessons.isLoading = w.client.inFlight .fetchLessons
  error : w.Quiet → w.LatestFailed → w.client.state.lessons.error ≠ none

/-- The client when the thunk at a position has its response. -/
def settledAt (i : ℕ) : WatchedFetches := { w with client := w.client.wait i .settled }

/-- A response to a fetch of lessons, or a failure, arrives while no other lessons are being
fetched; and the response that leaves nothing in flight is a failure, unless no latest fetch
failed. -/
def KeepsFlags : FetchEvent → Prop
  | .answered i answer => ∀ call token, w.client.thunks[i]? = some (.awaitingApi call token) →
      (call = .fetchLessons ∨ answer.isOk = false →
        (w.settledAt i).client.inFlight .fetchLessons = false) ∧
      (answer.isOk = true → (w.settledAt i).Quiet → ¬ w.LatestFailed)
  | _ => True

/-- The client waits only for fetches. -/
def OnlyFetches : Prop := ∀ t ∈ w.client.thunks, t.awaitsApi = true →
  t.awaits .fetchLessons = true ∨ t.awaits .fetchProgress = true

variable {w}

/-! ## Responses -/

/-- What a response to a fetch does to the flags, and that it changes no thunk. -/
theorem received_fetch (c : Client) (token : Option String) {call : ApiCall}
    (hcall : call = .fetchLessons ∨ call = .fetchProgress) (answer : Except String ResponseData) :
    (c.received token call answer).thunks = c.thunks ∧
      (c.received token call answer).state.lessons.isLoading =
        (if call = .fetchLessons ∨ answer.isOk = false then false
          else c.state.lessons.isLoading) ∧
      ((c.received token call answer).state.lessons.error = none ↔ answer.isOk = true) := by
  rcases hcall with rfl | rfl
  · cases answer with
    | ok data => exact ⟨rfl, rfl, iff_of_true rfl rfl⟩
    | error message => exact ⟨rfl, rfl, iff_of_false (Option.some_ne_none _) Bool.false_ne_true⟩
  · cases answer with
    | ok data => exact ⟨rfl, rfl, iff_of_true rfl rfl⟩
    | error message => exact ⟨rfl, rfl, iff_of_false (Option.some_ne_none _) Bool.false_ne_true⟩

/-- A thunk that waits for a response waits for that of a fetch. -/
theorem OnlyFetches.call_cases (h : w.OnlyFetches) {i : ℕ} {call : ApiCall}
    {token : Option String} (hi : w.client.thunks[i]? = some (.awaitingApi call token)) :
    call = .fetchLessons ∨ call = .fetchProgress := by
  rcases h _ (List.mem_of_getElem? hi) rfl with hl | hp
  · exact .inl (of_decide_eq_true hl)
  · exact .inr (of_decide_eq_true hp)

/-- A response that nobody waits for changes nothing. -/
theorem step_answered_of_not_awaits (J : UserJson) {i : ℕ} (answer : Except String ResponseData)
    (hi : ∀ call token, w.client.thunks[i]? ≠ some (.awaitingApi call token)) :
    w.step J (.answered i answer) = w := by
  have hclient : w.client.step J (.apiAnswered i answer) = w.client := by
    show w.client.apiAnswered i answer = w.client
    unfold Client.apiAnswered
    split
    · rename_i call token hcall
      exact absurd hcall (hi call token)
    · rfl
  have hnot : (w.client.thunks[i]?).any Thunk.awaitsApi = false := by
    cases ht : w.client.thunks[i]? with
    | none => rfl
    | some t =>
      cases t with
      | awaitingApi call token => exact absurd ht (hi call token)
      | _ => rfl
  have hfailed : w.failedAfter i answer = w.failed := by
    unfold failedAfter
    cases answer with
    | ok data => rfl
    | error message => rw [hnot, if_neg Bool.false_ne_true]
  show { w with client := w.client.step J (.apiAnswered i answer),
                failed := w.failedAfter i answer } = w
  rw [hclient, hfailed]

/-- The response to a fetch, and what it does to the flags. -/
theorem step_answered (J : UserJson) (h : w.OnlyFetches) {i : ℕ} {call : ApiCall}
    {token : Option String} (hi : w.client.thunks[i]? = some (.awaitingApi call token))
    (answer : Except String ResponseData) :
    let w' := w.step J (.answered i answer)
    w'.client.thunks = (w.settledAt i).client.thunks ∧
      w'.client.state.lessons.isLoading =
        (if call = .fetchLessons ∨ answer.isOk = false then false
          else w.client.state.lessons.isLoading) ∧
      (w'.client.state.lessons.error = none ↔ answer.isOk = true) := by
  have hclient : w.client.step J (.apiAnswered i answer) =
      (w.client.wait i .settled).received token call answer := by
    show w.client.apiAnswered i answer = _
    unfold Client.apiAnswered
    rw [hi]
  show (w.client.step J (.apiAnswered i answer)).thunks = _ ∧
    (w.client.step J (.apiAnswered i answer)).state.lessons.isLoading = _ ∧
    ((w.client.step J (.apiAnswered i answer)).state.lessons.error = none ↔ _)
  rw [hclient]
  exact received_fetch (w.client.wait i .settled) token (h.call_cases hi) answer

/-- The flags are right after a response exactly when it meets the condition. -/
theorem flagsFaithful_answered_iff (J : UserJson) (h : w.OnlyFetches) (hw : w.FlagsFaithful)
    (i : ℕ) (answer : Except String ResponseData) :
    (w.step J (.answered i answer)).FlagsFaithful ↔ w.KeepsFlags (.answered i answer) := by
  by_cases hi : ∃ call token, w.client.thunks[i]? = some (.awaitingApi call token)
  · obtain ⟨call, token, hi⟩ := hi
    obtain ⟨hthunks, hloading, herror⟩ := step_answered J h hi answer
    have hinFlight : ∀ call', (w.step J (.answered i answer)).client.inFlight call' =
        (w.settledAt i).client.inFlight call' := by
      intro call'
      exact congrArg (fun thunks => thunks.any (Thunk.awaits call')) hthunks
    have hquiet : (w.step J (.answered i answer)).Quiet ↔ (w.settledAt i).Quiet := by
      unfold Quiet
      rw [hinFlight, hinFlight]
    -- a success leaves the fetches that failed as they were
    have hlatest : answer.isOk = true →
        ((w.step J (.answered i answer)).LatestFailed ↔ w.LatestFailed) := by
      intro hok
      cases answer with
      | ok data => exact Iff.rfl
      | error message => cases hok
    constructor
    · intro hafter call' token' hi'
      cases hi.symm.trans hi'
      constructor
      · intro hclears
        rw [← hinFlight, ← hafter.loading, hloading, if_pos hclears]
      · intro hok hnone hfailed
        exact hafter.error (hquiet.mpr hnone) ((hlatest hok).mpr hfailed) (herror.mpr hok)
    · intro hkeeps
      obtain ⟨hclears, hlast⟩ := hkeeps call token hi
      constructor
      · rw [hloading, hinFlight]
        split
        · rename_i hcase
          exact (hclears hcase).symm
        · -- a success of a fetch of the progress leaves the fetches of the lessons alone
          rename_i hcase
          have hother : call = .fetchProgress := by
            rcases h.call_cases hi with hl | hp
            · exact absurd (.inl hl) hcase
            · exact hp
          subst hother
          rw [hw.loading]
          exact (Client.any_wait (p := Thunk.awaits .fetchLessons) (u := .settled) hi rfl).symm
      · intro hnone hfailed herr
        have hok := herror.mp herr
        exact hlast hok (hquiet.mp hnone) ((hlatest hok).mp hfailed)
  · -- nobody waits for the response
    have hnot : ∀ call token, w.client.thunks[i]? ≠ some (.awaitingApi call token) := by
      intro call token hcall
      exact hi ⟨call, token, hcall⟩
    rw [step_answered_of_not_awaits J answer hnot]
    apply iff_of_true hw
    intro call token hcall
    exact absurd hcall (hnot call token)

/-! ## Runs -/

/-- The invariant of runs whose events meet the condition. -/
structure FlagsInv (w : WatchedFetches) : Prop where
  onlyFetches : w.OnlyFetches
  faithful : w.FlagsFaithful

theorem onlyFetches_step (J : UserJson) (h : w.OnlyFetches) (e : FetchEvent) :
    (w.step J e).OnlyFetches := by
  have hnew : ∀ t, t.awaits .fetchLessons = true ∨ t.awaits .fetchProgress = true →
      ∀ t' ∈ w.client.thunks ++ [t], t'.awaitsApi = true →
        t'.awaits .fetchLessons = true ∨ t'.awaits .fetchProgress = true := by
    intro t ht t' hmem hawaits
    rcases List.mem_append.mp hmem with hold | hlast
    · exact h t' hold hawaits
    · rw [List.mem_singleton.mp hlast]
      exact ht
  cases e with
  | fetchLessons => exact hnew (.awaitingApi .fetchLessons _) (.inl rfl)
  | fetchProgress => exact hnew (.awaitingApi .fetchProgress _) (.inr rfl)
  | answered i answer =>
    by_cases hi : ∃ call token, w.client.thunks[i]? = some (.awaitingApi call token)
    · obtain ⟨call, token, hi⟩ := hi
      intro t ht hawaits
      rw [(step_answered J h hi answer).1] at ht
      rcases List.mem_or_eq_of_mem_set ht with hold | hsettled
      · exact h t hold hawaits
      · rw [hsettled] at hawaits
        cases hawaits
    · have hnot : ∀ call token, w.client.thunks[i]? ≠ some (.awaitingApi call token) := by
        intro call token hcall
        exact hi ⟨call, token, hcall⟩
      rw [step_answered_of_not_awaits J answer hnot]
      exact h

/-- A fetch that is issued is in flight. -/
theorem inFlight_issued (c : Client) (call : ApiCall) (token : Option String) :
    (c.spawn (.awaitingApi call token)).inFlight call = true := by
  unfold Client.inFlight
  apply List.any_eq_true.mpr
  exact ⟨_, List.mem_append_right _ (List.mem_singleton.mpr rfl), decide_eq_true rfl⟩

/-- The flags stay right when a fetch is issued. -/
theorem flagsFaithful_fetchLessons (J : UserJson) (w : WatchedFetches) :
    (w.step J .fetchLessons).FlagsFaithful where
  loading := (inFlight_issued (w.client.dispatch .lessonsRequest) .fetchLessons _).symm
  error hquiet := by
    have hbusy := inFlight_issued (w.client.dispatch .lessonsRequest) .fetchLessons
      (w.client.dispatch .lessonsRequest).state.auth.token
    exact absurd (hquiet.1.symm.trans hbusy) Bool.false_ne_true

theorem flagsFaithful_fetchProgress (J : UserJson) (hw : w.FlagsFaithful) :
    (w.step J .fetchProgress).FlagsFaithful where
  loading := by
    show w.client.state.lessons.isLoading = (w.client.thunks ++ [_]).any _
    rw [List.any_append, hw.loading]
    exact (Bool.or_false _).symm
  error hquiet := by
    have hbusy := inFlight_issued w.client .fetchProgress w.client.state.auth.token
    exact absurd (hquiet.2.symm.trans hbusy) Bool.false_ne_true

theorem FlagsInv.step (J : UserJson) (h : w.FlagsInv) (e : FetchEvent) (hkeeps : w.KeepsFlags e) :
    (w.step J e).FlagsInv where
  onlyFetches := onlyFetches_step J h.onlyFetches e
  faithful := by
    cases e with
    | fetchLessons => exact flagsFaithful_fetchLessons J w
    | fetchProgress => exact flagsFaithful_fetchProgress J h.faithful
    | answered i answer =>
      exact (flagsFaithful_answered_iff J h.onlyFetches h.faithful i answer).mpr hkeeps

/-- An event after which the flags are right meets the condition. -/
theorem keepsFlags_of_faithful (J : UserJson) (h : w.FlagsInv) (e : FetchEvent)
    (hafter : (w.step J e).FlagsFaithful) : w.KeepsFlags e := by
  cases e with
  | answered i answer =>
    exact (flagsFaithful_answered_iff J h.onlyFetches h.faithful i answer).mp hafter
  | fetchLessons => exact trivial
  | fetchProgress => exact trivial

end WatchedFetches

theorem IdleClient.flagsInv (c : IdleClient) : c.watched.FlagsInv where
  onlyFetches t ht hawaits := by
    rw [c.answered t ht] at hawaits
    cases hawaits
  faithful :=
    { loading := by
        show c.client.state.lessons.isLoading = c.client.inFlight .fetchLessons
        rw [c.loaded]
        symm
        apply List.any_eq_false.mpr
        intro t ht hawaits
        have hnot := c.answered t ht
        cases t with
        | awaitingApi call token => cases hnot
        | _ => cases hawaits
      error := by
        rintro - (⟨i, hi, -⟩ | ⟨i, hi, -⟩)
        · cases hi
        · cases hi }

/-- **The flags of the lessons are right in every state of a run of overlapping fetches exactly when
every response meets the condition.** -/
theorem loading_flags_faithful_iff (J : UserJson) (c : IdleClient) (events : List FetchEvent) :
    (∀ es, es <+: events → (run (WatchedFetches.step J) c.watched es).FlagsFaithful) ↔
      StepsMeet (WatchedFetches.step J) WatchedFetches.KeepsFlags c.watched events :=
  forall_prefix_iff_stepsMeet_of_invariant (I := WatchedFetches.FlagsInv)
    (J := WatchedFetches.FlagsFaithful) (fun _ h => h.faithful)
    (fun _ e h hkeeps => h.step J e hkeeps)
    (fun _ e h hafter => WatchedFetches.keepsFlags_of_faithful J h e hafter) c.flagsInv

/-- The client when it is started. -/
def startedClient : IdleClient where
  client := initialClient ⟨none, none⟩
  loaded := rfl
  answered := nofun

/-- **A failure is hidden.** The home screen fetches both lists, the fetch of the lessons fails, and
the progress arrives after that. -/
theorem failure_hidden_by_progress :
    ¬ (run (WatchedFetches.step userJson) startedClient.watched
      [.fetchLessons, .fetchProgress, .answered 0 (.error "Network request failed"),
        .answered 1 (.ok ⟨none, some []⟩)]).FlagsFaithful := by
  intro h
  have hquiet : (run (WatchedFetches.step userJson) startedClient.watched
      [.fetchLessons, .fetchProgress, .answered 0 (.error "Network request failed"),
        .answered 1 (.ok ⟨none, some []⟩)]).Quiet := ⟨rfl, rfl⟩
  exact h.error hquiet (.inl ⟨0, rfl, List.mem_singleton.mpr rfl⟩) rfl

/-- **A fetch is hidden.** The screen is pulled while the lessons are being fetched, and one of the
responses arrives. -/
theorem loading_hidden_by_answer :
    ¬ (run (WatchedFetches.step userJson) startedClient.watched
      [.fetchLessons, .fetchLessons, .answered 0 (.ok ⟨some [], none⟩)]).FlagsFaithful := by
  intro h
  have hloading : false = true := h.loading
  cases hloading

end LanguageGuru
