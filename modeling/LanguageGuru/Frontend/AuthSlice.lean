import LanguageGuru.Frontend.RestoredSession

/-!
# The auth slice

The thunks of the session share the flags of the auth slice. Every thunk that begins to load is
unfinished until it dispatches an action that ends the loading, and every action that sets the user
or the token sets both. So a user is shown exactly with a token, loading ends with the thunks, and a
bootstrap that ends has ended the bootstrapping for good. Stored users are not null: what is stored
is the text of a user, or was there when the client was started.

## Main definitions

* `Thunk.authenticates`: the thunks of a bootstrap, a login or a registration that has not finished
* `Client.AuthConsistent`: what holds of the auth slice
* `AuthState.Settles`: what an action that ends a thunk does to the auth slice
* `Client.StoredUsers`: the invariant of the storage and its operations
* `Client.AuthEffect`: a step leaves the auth slice alone, begins to load, or settles it

## Main results

* `storedUsers_step`: stored users are not null
* `auth_effect`: what a step can do to the auth slice
* `bootstrap_step`: a bootstrap that ends has ended the bootstrapping
* `auth_slice_consistent`: the auth slice in every run
-/

namespace LanguageGuru

open Process

/-- A bootstrap, a login or a registration that has not finished. -/
def Thunk.authenticates : Thunk → Bool
  | .readingSession _ _ => true
  | .awaitingAuth _ => true
  | .persistingSession _ _ _ _ => true
  | _ => false

/-- A text that is not the JSON text of null. -/
def UserJson.NotNull (J : UserJson) (text : String) : Prop := J.parse text ≠ some none

/-- What the end of a thunk does to the auth slice: nothing is loading any more, bootstrapping is
not set again, and user and token stay together. -/
structure AuthState.Settles (auth auth' : AuthState) : Prop where
  loading : auth'.isLoading = false
  bootstrapping : auth.isBootstrapping = false → auth'.isBootstrapping = false
  session : (auth.user = none ↔ auth.token = none) → (auth'.user = none ↔ auth'.token = none)

namespace Client

variable (c : Client)

/-- A bootstrap, a login or a registration has not finished. -/
def authenticating : Bool := c.thunks.any Thunk.authenticates

/-- The auth slice has a user exactly with a token, and is loading only while a bootstrap, a login
or a registration has not finished. -/
structure AuthConsistent : Prop where
  session : c.state.auth.user = none ↔ c.state.auth.token = none
  loading : c.state.auth.isLoading = true → c.authenticating = true

/-- The user that is stored, or written, or was read, is not null; and a bootstrap reads the user
with the second of its operations. -/
structure StoredUsers (J : UserJson) : Prop where
  stored : ∀ text, c.storage.user = some text → J.NotNull text
  written : ∀ text promise, (.setItem .user text, promise) ∈ c.operations → J.NotNull text
  read : ∀ text, (.getItem .user, .fulfilled (some text)) ∈ c.operations → J.NotNull text
  reading : ∀ a b, .readingSession a b ∈ c.thunks →
    ∃ promise, c.operations[b]? = some (.getItem .user, promise)

/-- What a step can do to the auth slice: nothing, begin to load with a thunk that has not finished,
or settle it. -/
inductive AuthEffect (c c' : Client) : Prop
  | quiet (auth : c'.state.auth = c.state.auth)
      (authenticating : c.authenticating = true → c'.authenticating = true)
  | begins (auth : c'.state.auth = { c.state.auth with isLoading := true, error := none })
      (authenticating : c'.authenticating = true)
  | settles (settles : c.state.auth.Settles c'.state.auth)

variable {c} {c' : Client} {J : UserJson}

/-! ## Stored users -/

/-- A step that changes neither the storage nor its operations, and begins no bootstrap. -/
theorem StoredUsers.frame (h : c.StoredUsers J) (hstorage : c'.storage = c.storage)
    (hoperations : c'.operations = c.operations)
    (hthunks : ∀ a b, .readingSession a b ∈ c'.thunks → .readingSession a b ∈ c.thunks) :
    c'.StoredUsers J where
  stored := hstorage ▸ h.stored
  written := hoperations ▸ h.written
  read := hoperations ▸ h.read
  reading a b hmem := hoperations ▸ h.reading a b (hthunks a b hmem)

/-- A call that writes a user writes one that is read back. -/
theorem notNull_of_written (hjson : J.ReadsBack) {returned : List (String × SanitizedUser)}
    {x y : StorageOperation} (hcall : StorageCall J returned (x, y)) {text : String}
    (htext : .setItem .user text = x ∨ .setItem .user text = y) : J.NotNull text := by
  cases hcall with
  | read => rcases htext with htext | htext <;> cases htext
  | persist hmem =>
    rcases htext with htext | htext
    · cases htext
    · cases htext
      intro hnull
      cases (hjson _).symm.trans hnull
  | remove => rcases htext with htext | htext <;> cases htext

/-- A step that performs no storage operation. -/
theorem StoredUsers.effect (h : c.StoredUsers J) (hjson : J.ReadsBack)
    {returned : List (String × SanitizedUser)} (heffect : StepEffect J returned c c') :
    c'.StoredUsers J := by
  cases heffect with
  | quiet hstorage hoperations hreads => exact h.frame hstorage hoperations hreads
  | starts x y hcall hstorage hoperations hreads =>
    constructor
    · rw [hstorage]
      exact h.stored
    · intro text promise hmem
      rw [hoperations] at hmem
      rcases List.mem_append.mp hmem with hold | hnew
      · exact h.written text promise hold
      · apply notNull_of_written hjson hcall
        rcases List.mem_pair.mp hnew with heq | heq
        · exact .inl (congrArg Prod.fst heq)
        · exact .inr (congrArg Prod.fst heq)
    · intro text hmem
      rw [hoperations] at hmem
      rcases List.mem_append.mp hmem with hold | hnew
      · exact h.read text hold
      · -- the new operations have not ended
        rcases List.mem_pair.mp hnew with heq | heq
        · cases congrArg Prod.snd heq
        · cases congrArg Prod.snd heq
    · intro a b hmem
      rw [hoperations]
      rcases hreads a b hmem with hold | ⟨rfl, rfl, rfl, rfl⟩
      · obtain ⟨promise, hb⟩ := h.reading a b hold
        refine ⟨promise, ?_⟩
        rw [List.getElem?_append_left (List.getElem?_eq_some_iff.mp hb).1, hb]
      · refine ⟨.pending, ?_⟩
        rw [List.getElem?_append_right (by omega), Nat.add_sub_cancel_left]
        rfl

/-- The operation at a position ends. -/
theorem StoredUsers.settle (h : c.StoredUsers J) {op : ℕ} {x : StorageOperation}
    (hop : c.operations[op]? = some (x, .pending)) {storage : SessionStorage}
    {promise : StoragePromise} (hstored : ∀ text, storage.user = some text → J.NotNull text)
    (hread : ∀ text, (x, promise) = (.getItem .user, .fulfilled (some text)) → J.NotNull text) :
    (c.settle op x promise storage).StoredUsers J where
  stored := hstored
  written text promise' hmem := by
    rcases List.mem_or_eq_of_mem_set hmem with hold | hnew
    · exact h.written text promise' hold
    · have hx : StorageOperation.setItem .user text = x := congrArg Prod.fst hnew
      exact h.written text .pending (hx ▸ List.mem_of_getElem? hop)
  read text hmem := by
    rcases List.mem_or_eq_of_mem_set hmem with hold | hnew
    · exact h.read text hold
    · exact hread text hnew.symm
  reading a b hmem := by
    obtain ⟨promise', hb⟩ := h.reading a b hmem
    by_cases heq : op = b
    · subst heq
      have hx : x = .getItem .user := congrArg Prod.fst (Option.some.inj (hop.symm.trans hb))
      refine ⟨promise, ?_⟩
      show (c.operations.set op _)[op]? = _
      rw [List.getElem?_set_self (List.getElem?_eq_some_iff.mp hb).1, hx]
    · refine ⟨promise', ?_⟩
      show (c.operations.set op _)[b]? = _
      rw [List.getElem?_set_ne heq, hb]

/-- The operation at a position is performed. -/
theorem StoredUsers.completes (h : c.StoredUsers J) {op : ℕ} {x : StorageOperation}
    (hop : c.operations[op]? = some (x, .pending)) : (c.storageCompletes op).StoredUsers J := by
  rw [storageCompletes_eq hop]
  apply h.settle hop
  · intro text htext
    cases x with
    | getItem key => exact h.stored text htext
    | setItem key value =>
      cases key with
      | token => exact h.stored text htext
      | user =>
        cases htext
        exact h.written text .pending (List.mem_of_getElem? hop)
    | removeItem key =>
      cases key with
      | token => exact h.stored text htext
      | user => cases htext
  · intro text heq
    -- what is read is what was stored
    have hx : x = .getItem .user := congrArg Prod.fst heq
    subst hx
    have hvalue : StoragePromise.fulfilled c.storage.user = .fulfilled (some text) :=
      congrArg Prod.snd heq
    exact h.stored text (StoragePromise.fulfilled.inj hvalue)

/-- **Stored users are not null.** -/
theorem storedUsers_step (hjson : J.ReadsBack) (c : Client) (e : ClientEvent)
    (h : c.StoredUsers J) : (c.step J e).StoredUsers J := by
  by_cases hcompletes : ∃ op, e = .storageCompletes op
  · obtain ⟨op, rfl⟩ := hcompletes
    by_cases hpending : ∃ x, c.operations[op]? = some (x, .pending)
    · obtain ⟨x, hop⟩ := hpending
      exact h.completes hop
    · rwa [(step_of_not_pending c "" fun x hop => hpending ⟨x, hop⟩).1]
  by_cases hrejects : ∃ op message, e = .storageRejects op message
  · obtain ⟨op, message, rfl⟩ := hrejects
    by_cases hpending : ∃ x, c.operations[op]? = some (x, .pending)
    · obtain ⟨x, hop⟩ := hpending
      show (c.storageRejects op message).StoredUsers J
      rw [storageRejects_eq hop]
      apply h.settle hop h.stored
      intro text heq
      cases congrArg Prod.snd heq
    · rwa [(step_of_not_pending c message fun x hop => hpending ⟨x, hop⟩).2]
  apply h.effect hjson
  apply step_effect J c e
  · intro op he
    exact hcompletes ⟨op, he⟩
  · intro op message he
    exact hrejects ⟨op, message, he⟩

/-- A bootstrap restores no user that is null. -/
theorem StoredUsers.restored (h : c.StoredUsers J) {a b : ℕ}
    (hthunk : .readingSession a b ∈ c.thunks) {read : Except String (Option String × Option String)}
    (hread : c.promiseAll a b = some read) {token : String} {user : Option SanitizedUser}
    (hrestored : restoredSession J read = .ok (some (token, user))) : user ≠ none := by
  obtain ⟨x, y, rfl, hsession⟩ := restoredSession_eq_some hrestored
  obtain ⟨-, text, rfl, hparse⟩ := storedSession_eq_some hsession
  obtain ⟨promise, hb⟩ := h.reading a b hthunk
  have hfulfilled : c.promise b = promise := by
    rw [Client.promise, hb]
    rfl
  rw [(promiseAll_eq_ok hread).2] at hfulfilled
  subst hfulfilled
  intro hnull
  subst hnull
  exact h.read text (List.mem_of_getElem? hb) hparse

/-! ## What a step does to the auth slice -/

/-- A thunk is started that leaves the auth slice alone. -/
theorem AuthEffect.spawn {t : Thunk} (hauth : c'.state.auth = c.state.auth)
    (hthunks : c'.thunks = c.thunks ++ [t]) : AuthEffect c c' := by
  apply AuthEffect.quiet hauth
  intro h
  rw [authenticating, hthunks, List.any_append]
  exact Bool.or_eq_true_iff.mpr (.inl h)

/-- A thunk is started that begins to load. -/
theorem AuthEffect.start {t : Thunk} (ht : t.authenticates = true)
    (hauth : c'.state.auth = { c.state.auth with isLoading := true, error := none })
    (hthunks : c'.thunks = c.thunks ++ [t]) : AuthEffect c c' := by
  apply AuthEffect.begins hauth
  rw [authenticating, hthunks, List.any_append, List.any_cons, ht]
  exact Bool.or_true _

/-- A bootstrap ends. -/
theorem sessionRead_settles (c : Client) {read : Except String (Option String × Option String)}
    (hnull : ∀ token user, restoredSession J read = .ok (some (token, user)) → user ≠ none) :
    c.state.auth.Settles (c.sessionRead J read).state.auth ∧
      (c.sessionRead J read).state.auth.isBootstrapping = false := by
  unfold sessionRead
  split
  · rename_i token user hrestored
    refine ⟨⟨rfl, fun _ => rfl, fun _ => ?_⟩, rfl⟩
    exact iff_of_false (hnull token user hrestored) (Option.some_ne_none token)
  · exact ⟨⟨rfl, fun _ => rfl, id⟩, rfl⟩
  · exact ⟨⟨rfl, fun _ => rfl, id⟩, rfl⟩

/-- A login or a registration ends, with a session or with a message. -/
theorem sessionPersisted_settles (c : Client) (token : String) (user : SanitizedUser)
    (saved : Except String (Option String × Option String)) :
    c.state.auth.Settles (c.sessionPersisted token user saved).state.auth := by
  cases saved with
  | ok values =>
    refine ⟨rfl, id, fun _ => ?_⟩
    exact iff_of_false (Option.some_ne_none _) (Option.some_ne_none _)
  | error message => exact ⟨rfl, id, id⟩

theorem authEffect_storageAwaited (h : c.StoredUsers J) (i : ℕ) :
    AuthEffect c (c.storageAwaited J i) := by
  unfold storageAwaited
  split
  · rename_i a b hthunk
    split
    · rename_i read hread
      apply AuthEffect.settles
      apply (sessionRead_settles (c.wait i .settled) ?_).1
      intro token user hrestored
      exact h.restored (List.mem_of_getElem? hthunk) hread hrestored
    · exact .quiet rfl id
  · rename_i token user a b hthunk
    split
    · exact .settles (sessionPersisted_settles (c.wait i .settled) token user _)
    · exact .quiet rfl id
  · rename_i a b hthunk
    split
    · rename_i removed hremoved
      cases removed with
      | ok values => exact .settles ⟨rfl, fun _ => rfl, fun _ => iff_of_true rfl rfl⟩
      | error message =>
        -- the logout ends without an action, and it loaded nothing
        refine .quiet rfl ?_
        intro hc
        exact (any_wait (p := Thunk.authenticates) (u := .settled) hthunk rfl).trans hc
    · exact .quiet rfl id
  · exact .quiet rfl id

theorem authEffect_authAnswered (i : ℕ) (answer : Except String (String × SanitizedUser)) :
    AuthEffect c (c.authAnswered J i answer) := by
  unfold authAnswered
  split
  · rename_i endpoint hthunk
    cases answer with
    | ok response =>
      -- the thunk goes on to store the session
      refine .quiet rfl ?_
      intro hc
      exact (any_set_of_eq (p := Thunk.authenticates)
        (y := .persistingSession response.1 response.2 c.operations.length
          (c.operations.length + 1)) hthunk rfl).trans hc
    | error message => exact .settles ⟨rfl, id, id⟩
  · exact .quiet rfl id

/-- A response to a request with a token does nothing to the auth slice. -/
theorem received_authEffect (c : Client) (token : Option String) (call : ApiCall)
    (answer : Except String ResponseData) : AuthEffect c (c.received token call answer) := by
  cases answer with
  | error message => cases call <;> exact .quiet rfl id
  | ok data =>
    cases call with
    | fetchLessons => exact .quiet rfl id
    | fetchProgress => exact .quiet rfl id
    | submitProgress lessonId score =>
      exact .spawn rfl rfl

theorem authEffect_apiAnswered (i : ℕ) (answer : Except String ResponseData) :
    AuthEffect c (c.apiAnswered i answer) := by
  unfold apiAnswered
  split
  · rename_i call token hthunk
    -- the thunk that ends loaded nothing
    have hwait : (c.wait i .settled).authenticating = c.authenticating :=
      any_wait (p := Thunk.authenticates) hthunk rfl
    cases received_authEffect (c.wait i .settled) token call answer with
    | quiet hauth hc => exact .quiet hauth fun h => hc (hwait.trans h)
    | begins hauth hc => exact .begins hauth hc
    | settles hsettles => exact .settles hsettles
  · exact .quiet rfl id

/-- **What a step can do to the auth slice.** -/
theorem auth_effect (h : c.StoredUsers J) (e : ClientEvent) : AuthEffect c (c.step J e) := by
  cases e with
  | bootstrapSession => exact .start rfl rfl rfl
  | loginUser => exact .start rfl rfl rfl
  | registerUser => exact .start rfl rfl rfl
  | logoutUser => exact .spawn rfl rfl
  | fetchLessons => exact .spawn rfl rfl
  | fetchProgress => exact .spawn rfl rfl
  | submitProgress lessonId score => exact .spawn rfl rfl
  | storageCompletes op =>
    show AuthEffect c (c.storageCompletes op)
    unfold storageCompletes
    split
    · exact .quiet rfl id
    · exact .quiet rfl id
  | storageRejects op message =>
    show AuthEffect c (c.storageRejects op message)
    unfold storageRejects
    split
    · exact .quiet rfl id
    · exact .quiet rfl id
  | storageAwaited i => exact authEffect_storageAwaited h i
  | authAnswered i answer => exact authEffect_authAnswered i answer
  | apiAnswered i answer => exact authEffect_apiAnswered i answer

/-- The auth slice stays consistent. -/
theorem AuthConsistent.effect (h : c.AuthConsistent) (heffect : AuthEffect c c') :
    c'.AuthConsistent := by
  cases heffect with
  | quiet hauth hc =>
    constructor
    · rw [hauth]
      exact h.session
    · rw [hauth]
      intro hloading
      exact hc (h.loading hloading)
  | begins hauth hc =>
    constructor
    · rw [hauth]
      exact h.session
    · intro _
      exact hc
  | settles hsettles =>
    constructor
    · exact hsettles.session h.session
    · intro hloading
      cases hsettles.loading.symm.trans hloading

/-- Bootstrapping that has ended does not begin again. -/
theorem AuthEffect.bootstrapped (heffect : AuthEffect c c')
    (h : c.state.auth.isBootstrapping = false) : c'.state.auth.isBootstrapping = false := by
  cases heffect with
  | quiet hauth hc => rw [hauth, h]
  | begins hauth hc => rw [hauth, h]
  | settles hsettles => exact hsettles.bootstrapping h

/-! ## Bootstraps that end -/

section Bootstrap

variable {i a b : ℕ}

theorem getElem?_spawn {t t' : Thunk} (h : c.thunks[i]? = some t) :
    (c.spawn t').thunks[i]? = some t := by
  show (c.thunks ++ [t'])[i]? = some t
  rw [List.getElem?_append_left (List.getElem?_eq_some_iff.mp h).1, h]

/-- A thunk that goes on is another one than a thunk that waits for something else. -/
theorem getElem?_wait {j : ℕ} {s t u : Thunk} (h : c.thunks[i]? = some t)
    (hj : c.thunks[j]? = some s) (hst : s ≠ t) : (c.wait j u).thunks[i]? = some t := by
  have hne : j ≠ i := by
    intro heq
    subst heq
    exact hst (Option.some.inj (hj.symm.trans h))
  show (c.thunks.set j u)[i]? = some t
  rw [List.getElem?_set_ne hne, h]

theorem bootstrap_storageAwaited (h : c.thunks[i]? = some (.readingSession a b)) (j : ℕ) :
    (c.storageAwaited J j).thunks[i]? = some (.readingSession a b) ∨
      (c.storageAwaited J j).state.auth.isBootstrapping = false := by
  unfold storageAwaited
  split
  · split
    · right
      unfold sessionRead
      split <;> rfl
    · exact .inl h
  · rename_i hthunk
    split
    · rename_i saved _
      left
      have hwait := getElem?_wait (u := .settled) h hthunk (by simp)
      cases saved <;> exact hwait
    · exact .inl h
  · rename_i hthunk
    split
    · rename_i removed _
      left
      have hwait := getElem?_wait (u := .settled) h hthunk (by simp)
      cases removed <;> exact hwait
    · exact .inl h
  · exact .inl h

theorem thunks_authAnswered (h : c.thunks[i]? = some (.readingSession a b)) (j : ℕ)
    (answer : Except String (String × SanitizedUser)) :
    (c.authAnswered J j answer).thunks[i]? = some (.readingSession a b) := by
  unfold authAnswered
  split
  · rename_i hthunk
    cases answer with
    | ok response => exact getElem?_wait h hthunk (by simp)
    | error message => exact getElem?_wait h hthunk (by simp)
  · exact h

theorem thunks_apiAnswered (h : c.thunks[i]? = some (.readingSession a b)) (j : ℕ)
    (answer : Except String ResponseData) :
    (c.apiAnswered j answer).thunks[i]? = some (.readingSession a b) := by
  unfold apiAnswered
  split
  · rename_i call token hthunk
    have hwait : (c.wait j .settled).thunks[i]? = some (.readingSession a b) :=
      getElem?_wait h hthunk (by simp)
    cases answer with
    | error message => cases call <;> exact hwait
    | ok data =>
      cases call with
      | fetchLessons => exact hwait
      | fetchProgress => exact hwait
      | submitProgress lessonId score => exact getElem?_spawn hwait
  · exact h

/-- **A bootstrap goes on to wait, or ends the bootstrapping.** -/
theorem bootstrap_step (e : ClientEvent) (h : c.thunks[i]? = some (.readingSession a b)) :
    (c.step J e).thunks[i]? = some (.readingSession a b) ∨
      (c.step J e).state.auth.isBootstrapping = false := by
  cases e with
  | bootstrapSession => exact .inl (getElem?_spawn h)
  | loginUser => exact .inl (getElem?_spawn h)
  | registerUser => exact .inl (getElem?_spawn h)
  | logoutUser => exact .inl (getElem?_spawn h)
  | fetchLessons => exact .inl (getElem?_spawn h)
  | fetchProgress => exact .inl (getElem?_spawn h)
  | submitProgress lessonId score => exact .inl (getElem?_spawn h)
  | storageCompletes op =>
    left
    show (c.storageCompletes op).thunks[i]? = _
    unfold storageCompletes
    split <;> exact h
  | storageRejects op message =>
    left
    show (c.storageRejects op message).thunks[i]? = _
    unfold storageRejects
    split <;> exact h
  | storageAwaited j => exact bootstrap_storageAwaited h j
  | authAnswered j answer => exact .inl (thunks_authAnswered h j answer)
  | apiAnswered j answer => exact .inl (thunks_apiAnswered h j answer)

end Bootstrap

/-! ## Runs -/

/-- The invariant of runs. -/
structure AuthInv (J : UserJson) (c : Client) : Prop where
  stored : c.StoredUsers J
  consistent : c.AuthConsistent

theorem authInv_step (hjson : J.ReadsBack) (c : Client) (e : ClientEvent) (h : c.AuthInv J) :
    (c.step J e).AuthInv J where
  stored := storedUsers_step hjson c e h.stored
  consistent := h.consistent.effect (auth_effect h.stored e)

theorem authInv_initialClient (storage : SessionStorage)
    (hstored : ∀ text, storage.user = some text → J.NotNull text) :
    (initialClient storage).AuthInv J where
  stored :=
    { stored := hstored
      written := by
        intro text promise hmem
        cases hmem
      read := by
        intro text hmem
        cases hmem
      reading := by
        intro a b hmem
        cases hmem }
  consistent :=
    { session := iff_of_true rfl rfl
      loading := by
        intro hloading
        cases hloading }

end Client

/-- **The auth slice is never stuck and never half signed in.** In every state of a run of any
thunks from a storage whose user is not null: there is a user exactly with a token, and nothing is
loading unless a bootstrap, a login or a registration has not finished; bootstrapping that has ended
does not begin again, and it has ended once a bootstrap has finished. -/
theorem auth_slice_consistent (J : UserJson) (hjson : J.ReadsBack) (storage : SessionStorage)
    (hstored : ∀ text, storage.user = some text → J.NotNull text)
    (events more : List ClientEvent) :
    let c : Client := run (Client.step J) (initialClient storage) events
    let c' : Client := run (Client.step J) (initialClient storage) (events ++ more)
    c.AuthConsistent ∧
      (c.state.auth.isBootstrapping = false → c'.state.auth.isBootstrapping = false) ∧
      ∀ i a b : ℕ, c.thunks[i]? = some (.readingSession a b) → c'.thunks[i]? = some .settled →
        c'.state.auth.isBootstrapping = false := by
  intro c c'
  have hinv : c.AuthInv J :=
    run_invariant (Client.authInv_step hjson) (Client.authInv_initialClient storage hstored) events
  have hmore : c' = run (Client.step J) c more := run_append _ _ events more
  rw [hmore]
  refine ⟨hinv.consistent, ?_, ?_⟩
  · intro hdone
    have hstep : ∀ (c : Client) e, c.AuthInv J ∧ c.state.auth.isBootstrapping = false →
        (c.step J e).AuthInv J ∧ (c.step J e).state.auth.isBootstrapping = false := by
      rintro c e ⟨h, hdone⟩
      exact ⟨Client.authInv_step hjson c e h, (Client.auth_effect h.stored e).bootstrapped hdone⟩
    exact (run_invariant hstep ⟨hinv, hdone⟩ more).2
  · intro i a b hreading hsettled
    -- the bootstrap waits until it ends the bootstrapping
    have hstep : ∀ (c : Client) e, c.AuthInv J ∧ (c.thunks[i]? = some (.readingSession a b) ∨
        c.state.auth.isBootstrapping = false) → (c.step J e).AuthInv J ∧
        ((c.step J e).thunks[i]? = some (.readingSession a b) ∨
          (c.step J e).state.auth.isBootstrapping = false) := by
      rintro c e ⟨h, hwaits | hdone⟩
      · exact ⟨Client.authInv_step hjson c e h, Client.bootstrap_step e hwaits⟩
      · exact ⟨Client.authInv_step hjson c e h,
          .inr ((Client.auth_effect h.stored e).bootstrapped hdone)⟩
    rcases (run_invariant hstep ⟨hinv, .inl hreading⟩ more).2 with hwaits | hdone
    · cases hsettled.symm.trans hwaits
    · exact hdone

/-- The storage of a device on which the user `ada` is signed in. -/
def signedInStorage : SessionStorage :=
  ⟨some "token", some (userJson.stringify
    ⟨"u_1", "ada", "ada", "ada@example.com", "Engineer", "Engineer", 0⟩)⟩

theorem notNull_signedInStorage (text : String) (h : signedInStorage.user = some text) :
    userJson.NotNull text := by
  obtain rfl := Option.some.inj h
  rw [UserJson.NotNull, userJson_readsBack]
  exact fun hnull => Option.some_ne_none _ (Option.some.inj hnull)

/-- A bootstrap that finds a session ends the bootstrapping while a login waits. -/
theorem bootstrap_ends_during_login :
    let c : Client := run (Client.step userJson) (initialClient signedInStorage)
      ([.bootstrapSession, .loginUser] ++ [.storageCompletes 1, .storageCompletes 0,
        .storageAwaited 0])
    c.state.auth.isBootstrapping = false ∧ c.state.auth.token = some "token" := by
  generalize hevents : ([.bootstrapSession, .loginUser] : List ClientEvent) = events
  generalize hmore : ([.storageCompletes 1, .storageCompletes 0, .storageAwaited 0] :
    List ClientEvent) = more
  have hslice := auth_slice_consistent userJson userJson_readsBack signedInStorage
    notNull_signedInStorage events more
  obtain ⟨hreading, hsettled, htoken⟩ :
      (run (Client.step userJson) (initialClient signedInStorage) events).thunks[0]? =
          some (.readingSession 0 1) ∧
        (run (Client.step userJson) (initialClient signedInStorage)
          (events ++ more)).thunks[0]? = some .settled ∧
        (run (Client.step userJson) (initialClient signedInStorage)
          (events ++ more)).state.auth.token = some "token" := by
    rw [← hevents, ← hmore]
    decide +kernel
  exact ⟨hslice.2.2 0 0 1 hreading hsettled, htoken⟩

end LanguageGuru
