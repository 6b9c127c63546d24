import LanguageGuru.Backend.Content
import LanguageGuru.Frontend.Thunks

/-!
# The lists of the client and its session

The lists that the client shows should have been returned to requests of the session it is in. A
list is replaced whenever a response arrives, whatever became of the session since its request was
sent, and only a logout clears the lists. So the lists are those of the session in every state of a
run exactly when no response with a list comes from a request of another session and no session
replaces another one while a list is shown.

## Main definitions

* `ListsOfSession`: the lists come from requests with the token of the session, and are empty when
  there is none
* `KeepsSession`: the condition on an event

## Main results

* `listsOfSession_step_iff`: the condition is exact for one event
* `lists_follow_session_iff`: it is exact for runs
* `lists_survive_logout`: a response that arrives after the logout is shown
-/

namespace LanguageGuru

open Process

namespace Client

variable (c : Client)

/-- The request carried the token of the session. -/
def Carried (token : Option String) : Prop := token.isSome ∧ c.state.auth.token = token

instance (token : Option String) : Decidable (c.Carried token) :=
  inferInstanceAs (Decidable (_ ∧ _))

/-- The lists were returned to requests that carried the token of the session, and are empty when
there is no user. -/
structure ListsOfSession : Prop where
  items : c.state.lessons.items = [] ∨ c.Carried c.itemsToken
  progress : c.state.lessons.progress = [] ∨ c.Carried c.progressToken
  noUser : c.state.auth.user = none → c.state.lessons.items = [] ∧ c.state.lessons.progress = []

/-- Both lists are empty. -/
def ListsEmpty : Prop := c.state.lessons.items = [] ∧ c.state.lessons.progress = []

instance : Decidable c.ListsEmpty := inferInstanceAs (Decidable (_ ∧ _))

/-- A session with this token and user can begin: no list is shown, or the client is in a session
with this token already. -/
def CanBegin (token : String) (user : Option SanitizedUser) : Prop :=
  c.ListsEmpty ∨ (c.state.auth.token = some token ∧ user.isSome)

/-- A list that a request with this token returned can be shown: it is empty, or the client is in
the session with this token. -/
def CanShow {α : Type} (token : Option String) (list : List α) : Prop :=
  list = [] ∨ (c.Carried token ∧ c.state.auth.user.isSome)

/-- The thunk that goes on begins a session that can begin, if it begins one. -/
def BeginsWell (J : UserJson) : Option Thunk → Prop
  | some (.persistingSession token user a b) =>
    match c.promiseAll a b with
    | some (.ok _) => c.CanBegin token (some user)
    | _ => True
  | some (.readingSession a b) =>
    match (c.promiseAll a b).map (restoredSession J) with
    | some (.ok (some session)) => c.CanBegin session.1 session.2
    | _ => True
  | _ => True

/-- The thunk that goes on with a response shows a list that can be shown, if it shows one. -/
def ShowsWell (data : ResponseData) : Option Thunk → Prop
  | some (.awaitingApi .fetchLessons token) => c.CanShow token (data.lessons.getD [])
  | some (.awaitingApi _ token) => c.CanShow token (data.progress.getD [])
  | _ => True

/-- The event brings no list of another session, and begins no other session while a list is
shown. -/
def KeepsSession (J : UserJson) : ClientEvent → Prop
  | .apiAnswered i (.ok data) => c.ShowsWell data c.thunks[i]?
  | .storageAwaited i => c.BeginsWell J c.thunks[i]?
  | _ => True

variable {c} {c' : Client}

/-- Only the session, the lists and their tokens matter. -/
theorem ListsOfSession.congr (h : c.ListsOfSession)
    (hauth : c'.state.auth.token = c.state.auth.token)
    (huser : c'.state.auth.user = c.state.auth.user)
    (hitems : c'.state.lessons.items = c.state.lessons.items)
    (hprogress : c'.state.lessons.progress = c.state.lessons.progress)
    (hitemsToken : c'.itemsToken = c.itemsToken)
    (hprogressToken : c'.progressToken = c.progressToken) : c'.ListsOfSession := by
  obtain ⟨hi, hp, hn⟩ := h
  constructor
  · rwa [Carried, hitems, hitemsToken, hauth]
  · rwa [Carried, hprogress, hprogressToken, hauth]
  · rwa [huser, hitems, hprogress]

/-- A new session keeps the lists. -/
theorem listsOfSession_begin_iff (h : c.ListsOfSession) {token : String}
    {user : Option SanitizedUser} (htoken : c'.state.auth.token = some token)
    (huser : c'.state.auth.user = user)
    (hitems : c'.state.lessons.items = c.state.lessons.items)
    (hprogress : c'.state.lessons.progress = c.state.lessons.progress)
    (hitemsToken : c'.itemsToken = c.itemsToken)
    (hprogressToken : c'.progressToken = c.progressToken) :
    c'.ListsOfSession ↔ c.CanBegin token user := by
  constructor
  · intro h'
    by_cases hempty : c.ListsEmpty
    · exact .inl hempty
    · have hsome : user.isSome := by
        by_contra hnone
        have hnone' : c'.state.auth.user = none := by
          rw [huser]
          simpa using hnone
        have := h'.noUser hnone'
        rw [hitems, hprogress] at this
        exact hempty this
      -- a list that is shown ties the new token to the old one
      refine .inr ⟨?_, hsome⟩
      by_cases hi : c.state.lessons.items = []
      · have hp : c.state.lessons.progress ≠ [] := fun hp => hempty ⟨hi, hp⟩
        have hold := (h.progress.resolve_left hp).2
        have hnew := (h'.progress.resolve_left (hprogress ▸ hp)).2
        rw [hprogressToken, htoken] at hnew
        rw [hold, hnew]
      · have hold := (h.items.resolve_left hi).2
        have hnew := (h'.items.resolve_left (hitems ▸ hi)).2
        rw [hitemsToken, htoken] at hnew
        rw [hold, hnew]
  · -- empty lists belong to any session, and the same token carries the shown ones on
    rintro (⟨hi, hp⟩ | ⟨htoken', hsome⟩)
    · exact ⟨.inl (hitems.trans hi), .inl (hprogress.trans hp),
        fun _ => ⟨hitems.trans hi, hprogress.trans hp⟩⟩
    · constructor
      · rw [Carried, hitems, hitemsToken, htoken, ← htoken']
        exact h.items
      · rw [Carried, hprogress, hprogressToken, htoken, ← htoken']
        exact h.progress
      · intro hnone
        rw [huser] at hnone
        rw [hnone] at hsome
        cases hsome

theorem listsOfSession_showLessons_iff (h : c.ListsOfSession) (token : Option String)
    (data : ResponseData) :
    (c.showLessons token data).ListsOfSession ↔ c.CanShow token (data.lessons.getD []) := by
  constructor
  · intro h'
    rcases h'.items with hempty | hcarried
    · exact .inl hempty
    · by_cases huser : c.state.auth.user = none
      · exact .inl (h'.noUser huser).1
      · exact .inr ⟨hcarried, Option.isSome_iff_ne_none.mpr huser⟩
  · rintro (hempty | ⟨hcarried, huser⟩)
    · exact ⟨.inl hempty, h.progress, fun hnone => ⟨hempty, (h.noUser hnone).2⟩⟩
    · refine ⟨.inr hcarried, h.progress, fun hnone => ?_⟩
      exact absurd hnone (Option.isSome_iff_ne_none.mp huser)

theorem listsOfSession_showProgress_iff (h : c.ListsOfSession) (token : Option String)
    (data : ResponseData) :
    (c.showProgress token data).ListsOfSession ↔ c.CanShow token (data.progress.getD []) := by
  constructor
  · intro h'
    rcases h'.progress with hempty | hcarried
    · exact .inl hempty
    · by_cases huser : c.state.auth.user = none
      · exact .inl (h'.noUser huser).2
      · exact .inr ⟨hcarried, Option.isSome_iff_ne_none.mpr huser⟩
  · rintro (hempty | ⟨hcarried, huser⟩)
    · exact ⟨h.items, .inl hempty, fun hnone => ⟨(h.noUser hnone).1, hempty⟩⟩
    · refine ⟨h.items, .inr hcarried, fun hnone => ?_⟩
      exact absurd hnone (Option.isSome_iff_ne_none.mp huser)

/-- Waiting and starting requests do not touch the lists. -/
theorem listsOfSession_wait_iff (i : ℕ) (t : Thunk) :
    (c.wait i t).ListsOfSession ↔ c.ListsOfSession :=
  ⟨fun h => h.congr rfl rfl rfl rfl rfl rfl, fun h => h.congr rfl rfl rfl rfl rfl rfl⟩

theorem listsOfSession_fetchLessons_iff : c.fetchLessons.ListsOfSession ↔ c.ListsOfSession :=
  ⟨fun h => h.congr rfl rfl rfl rfl rfl rfl, fun h => h.congr rfl rfl rfl rfl rfl rfl⟩

theorem listsOfSession_storageAwaited_iff (J : UserJson) (h : c.ListsOfSession) (i : ℕ) :
    (c.storageAwaited J i).ListsOfSession ↔ c.BeginsWell J c.thunks[i]? := by
  unfold storageAwaited
  rcases c.thunks[i]? with _ | thunk
  · exact iff_of_true h trivial
  cases thunk with
  | awaitingAuth endpoint => exact iff_of_true h trivial
  | awaitingApi call token => exact iff_of_true h trivial
  | settled => exact iff_of_true h trivial
  | persistingSession token user a b =>
    simp only [BeginsWell]
    -- the storing goes on, was rejected, or is done and the session begins
    rcases c.promiseAll a b with _ | message | saved
    · exact iff_of_true h trivial
    · exact iff_of_true (h.congr rfl rfl rfl rfl rfl rfl) trivial
    · exact listsOfSession_begin_iff h rfl rfl rfl rfl rfl rfl
  | readingSession a b =>
    simp only [BeginsWell]
    rcases c.promiseAll a b with _ | read
    · exact iff_of_true h trivial
    · simp only [sessionRead, Option.map_some]
      rcases restoredSession J read with message | _ | session
      · exact iff_of_true (h.congr rfl rfl rfl rfl rfl rfl) trivial
      · exact iff_of_true (h.congr rfl rfl rfl rfl rfl rfl) trivial
      · exact listsOfSession_begin_iff h rfl rfl rfl rfl rfl rfl
  | removingSession a b =>
    simp only [BeginsWell, iff_true]
    -- a logout that removed the session empties the lists
    rcases c.promiseAll a b with _ | message | removed
    · exact h
    · exact h.congr rfl rfl rfl rfl rfl rfl
    · exact ⟨.inl rfl, .inl rfl, fun _ => ⟨rfl, rfl⟩⟩

theorem listsOfSession_apiAnswered_error (h : c.ListsOfSession) (i : ℕ) (message : String) :
    (c.apiAnswered i (.error message)).ListsOfSession := by
  unfold apiAnswered
  rcases c.thunks[i]? with _ | thunk
  · exact h
  cases thunk with
  | awaitingApi call token => cases call <;> exact h.congr rfl rfl rfl rfl rfl rfl
  | _ => exact h

theorem listsOfSession_apiAnswered_iff (h : c.ListsOfSession) (i : ℕ) (data : ResponseData) :
    (c.apiAnswered i (.ok data)).ListsOfSession ↔ c.ShowsWell data c.thunks[i]? := by
  unfold apiAnswered
  rcases c.thunks[i]? with _ | thunk
  · exact iff_of_true h trivial
  cases thunk with
  | awaitingApi call token =>
    have hw : (c.wait i .settled).ListsOfSession := (listsOfSession_wait_iff i _).mpr h
    cases call with
    | fetchLessons => exact listsOfSession_showLessons_iff hw token data
    | fetchProgress => exact listsOfSession_showProgress_iff hw token data
    | submitProgress lessonId score =>
      -- the request for the lessons that follows shows nothing yet
      refine listsOfSession_fetchLessons_iff.trans ?_
      exact listsOfSession_showProgress_iff hw token data
  | _ => exact iff_of_true h trivial

/-- Storage operations and the start of a session's storing do not touch the lists. -/
theorem listsOfSession_storage (h : c.ListsOfSession) (J : UserJson) (op : ℕ) (message : String)
    (answer : Except String (String × SanitizedUser)) :
    (c.storageCompletes op).ListsOfSession ∧ (c.storageRejects op message).ListsOfSession ∧
      (c.authAnswered J op answer).ListsOfSession := by
  refine ⟨?_, ?_, ?_⟩
  · unfold storageCompletes
    rcases c.operations[op]? with _ | ⟨a, _ | value | reason⟩
    · exact h
    · exact h.congr rfl rfl rfl rfl rfl rfl
    · exact h
    · exact h
  · unfold storageRejects
    rcases c.operations[op]? with _ | ⟨a, _ | value | reason⟩
    · exact h
    · exact h.congr rfl rfl rfl rfl rfl rfl
    · exact h
    · exact h
  · unfold authAnswered
    rcases c.thunks[op]? with _ | thunk
    · exact h
    cases thunk with
    | awaitingAuth endpoint =>
      rcases answer with reason | ⟨token, user⟩
      · exact h.congr rfl rfl rfl rfl rfl rfl
      · exact h.congr rfl rfl rfl rfl rfl rfl
    | _ => exact h

/-- **The condition is exact for one event.** -/
theorem listsOfSession_step_iff (J : UserJson) (h : c.ListsOfSession) (e : ClientEvent) :
    (c.step J e).ListsOfSession ↔ c.KeepsSession J e := by
  cases e with
  | storageAwaited i => exact listsOfSession_storageAwaited_iff J h i
  | apiAnswered i answer =>
    cases answer with
    | error message => exact iff_of_true (listsOfSession_apiAnswered_error h i message) trivial
    | ok data => exact listsOfSession_apiAnswered_iff h i data
  | storageCompletes op =>
    exact iff_of_true (listsOfSession_storage h J op "" (.error "")).1 trivial
  | storageRejects op message =>
    exact iff_of_true (listsOfSession_storage h J op message (.error "")).2.1 trivial
  | authAnswered i answer =>
    exact iff_of_true (listsOfSession_storage h J i "" answer).2.2 trivial
  | _ => exact iff_of_true (h.congr rfl rfl rfl rfl rfl rfl) trivial

end Client

/-- **The lists follow the session exactly as long as no event breaks the condition.** In every
state of a run of the client the lists come from requests with the token of the session, and are
empty without a user, if and only if no event of the run brings a list of another session or begins
another session while a list is shown. -/
theorem lists_follow_session_iff (J : UserJson) (storage : SessionStorage)
    (events : List ClientEvent) :
    (∀ es, es <+: events → (run (Client.step J) (initialClient storage) es).ListsOfSession) ↔
      StepsMeet (Client.step J) (fun c e => c.KeepsSession J e) (initialClient storage) events :=
  forall_prefix_iff_stepsMeet (I := Client.ListsOfSession)
    (fun _ e h => Client.listsOfSession_step_iff J h e)
    ⟨.inl rfl, .inl rfl, fun _ => ⟨rfl, rfl⟩⟩

/-- The lessons that were requested before a logout are shown after it. -/
theorem lists_survive_logout :
    let J : UserJson := ⟨fun user => user.email, fun _ => none⟩
    let ada : SanitizedUser := ⟨"u_1", "ada", "ada", "ada@example.com", "Engineer", "Engineer", 0⟩
    let lesson : LessonResponse :=
      { dailyConversation with
        createdBy := "system", createdAt := 0, completed := true, score := some 80 }
    let events : List ClientEvent :=
      [.loginUser, .authAnswered 0 (.ok ("token-a", ada)), .storageCompletes 0,
        .storageCompletes 1, .storageAwaited 0, .fetchLessons, .logoutUser, .storageCompletes 2,
        .storageCompletes 3, .storageAwaited 2, .apiAnswered 1 (.ok ⟨some [lesson], none⟩)]
    ¬ (run (Client.step J) (initialClient ⟨none, none⟩) events).ListsOfSession := by
  intro J ada lesson events h
  have hleak : (run (Client.step J) (initialClient ⟨none, none⟩) events).state.auth.user = none ∧
      (run (Client.step J) (initialClient ⟨none, none⟩) events).state.lessons.items ≠ [] := by
    decide +kernel
  exact hleak.2 (h.noUser hleak.1).1

end LanguageGuru
