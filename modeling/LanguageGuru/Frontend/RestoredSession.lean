import LanguageGuru.Frontend.UserText

/-!
# The restored session

The token and the user of a session are two items of the storage. A login writes both, a logout
removes both and a bootstrap reads both, each with two operations that end on their own: one may
fail or be lost when the app is killed, and operations of other calls may end in between. So a
bootstrap can find the token of one response with the user of another. It restores a pair that one
response returned as long as no bootstrap begins to read while the two items come from different
calls, and no item is written that a bootstrap still has to read after it has read the other one.

## Main definitions

* `Device`, `Device.step`: the client over restarts, with the responses it received and the calls
  that changed the two items last
* `Client.restores`: the session that a step restores
* `Device.ReadsWhole`: the condition on an event
* `Device.RestoresReturned`: what is restored is a pair that one response returned

## Main results

* `consistent_step`: what a step preserves under the condition
* `restored_session_returned`: in a run whose steps meet the condition, every restored session is
  a pair that one response returned
* `half_written_session_restored`: a login whose second write fails is enough to break it
-/

namespace LanguageGuru

open Process

/-! ## The device -/

def StorageOperation.key : StorageOperation → StorageKey
  | .getItem key => key
  | .setItem key _ => key
  | .removeItem key => key

/-- The text that an operation leaves in its item. -/
def StorageOperation.text : StorageOperation → Option String
  | .setItem _ text => some text
  | _ => none

def StoragePromise.isFulfilled : StoragePromise → Bool
  | .fulfilled _ => true
  | _ => false

namespace Client

variable (c : Client)

/-- The storage operations started so far. -/
def started : List StorageOperation := c.operations.map Prod.fst

/-- The two items as the call that started this operation leaves them when it succeeds. -/
def target (op : ℕ) : SessionStorage where
  token := c.started[2 * (op / 2)]?.bind StorageOperation.text
  user := c.started[2 * (op / 2) + 1]?.bind StorageOperation.text

/-- The storage operation that an event performs. -/
def performed : ClientEvent → Option (ℕ × StorageOperation)
  | .storageCompletes op =>
    match c.operations[op]? with
    | some (a, .pending) => some (op, a)
    | _ => none
  | _ => none

/-- The response that an event brings to a login or a registration. -/
def answered : ClientEvent → List (String × SanitizedUser)
  | .authAnswered i (.ok response) =>
    match c.thunks[i]? with
    | some (.awaitingAuth _) => [response]
    | _ => []
  | _ => []

/-- The target of the call that changed an item last. -/
def targetAfter (key : StorageKey) (target : SessionStorage) (e : ClientEvent) : SessionStorage :=
  match c.performed e with
  | none => target
  | some (_, .getItem _) => target
  | some (op, a) => if a.key = key then c.target op else target

/-- The session with which `bootstrapSession` dispatches `AUTH_BOOTSTRAP_SUCCESS` in a step. -/
def restores (J : UserJson) : ClientEvent → Option (String × Option SanitizedUser)
  | .storageAwaited i =>
    match c.thunks[i]? with
    | some (.readingSession a b) =>
      match (c.promiseAll a b).map (restoredSession J) with
      | some (.ok session) => session
      | _ => none
    | _ => none
  | _ => none

theorem step_of_restores {J : UserJson} {e : ClientEvent} {token : String}
    {user : Option SanitizedUser} (h : c.restores J e = some (token, user)) :
    ∃ i a b read, e = .storageAwaited i ∧ .readingSession a b ∈ c.thunks ∧
      c.promiseAll a b = some read ∧ restoredSession J read = .ok (some (token, user)) ∧
      c.step J e = (c.wait i .settled).dispatch (.authBootstrapSuccess token user) := by
  cases e with
  | storageAwaited i =>
    simp only [restores] at h
    split at h
    · rename_i a b hthunk
      split at h
      · rename_i session hsession
        subst h
        obtain ⟨read, hread, hrestored⟩ := Option.map_eq_some_iff.mp hsession
        refine ⟨i, a, b, read, rfl, List.mem_of_getElem? hthunk, hread, hrestored, ?_⟩
        simp only [step, storageAwaited, hthunk, hread, sessionRead, hrestored]
      · cases h
    · cases h
  | _ => cases h

variable {c}

theorem promiseAll_eq_ok {a b : ℕ} {x y : Option String}
    (h : c.promiseAll a b = some (.ok (x, y))) :
    c.promise a = .fulfilled x ∧ c.promise b = .fulfilled y := by
  unfold promiseAll at h
  split at h
  · cases h
    exact ⟨‹_›, ‹_›⟩
  · cases h
  · cases h
  · cases h

theorem restoredSession_eq_some {J : UserJson}
    {read : Except String (Option String × Option String)}
    {session : String × Option SanitizedUser}
    (h : restoredSession J read = .ok (some session)) :
    ∃ x y, read = .ok (x, y) ∧ storedSession J (x, y) = .ok (some session) := by
  cases read with
  | error message => cases h
  | ok values => exact ⟨values.1, values.2, rfl, h⟩

theorem storedSession_eq_some {J : UserJson} {x y : Option String} {token : String}
    {user : Option SanitizedUser} (h : storedSession J (x, y) = .ok (some (token, user))) :
    x = some token ∧ ∃ text, y = some text ∧ J.parse text = some user := by
  unfold storedSession at h
  split at h
  · rename_i token' text heq
    cases heq
    split at h
    · cases h
    · split at h
      · rename_i user' hparse
        cases h
        exact ⟨rfl, text, rfl, hparse⟩
      · cases h
  · cases h

end Client

/-- The client over restarts, with the responses it has received and, for each item, the target of
the call that changed it last. -/
structure Device where
  client : Client
  returned : List (String × SanitizedUser)
  tokenTarget : SessionStorage
  userTarget : SessionStorage

/-- The client takes a step, or the app is killed and started again. -/
inductive DeviceEvent where
  | run (e : ClientEvent)
  | killed

/-- The device before the app is started for the first time. -/
def freshDevice : Device where
  client := initialClient ⟨none, none⟩
  returned := []
  tokenTarget := ⟨none, none⟩
  userTarget := ⟨none, none⟩

namespace Device

variable (d : Device)

def step (J : UserJson) (d : Device) : DeviceEvent → Device
  | .run e =>
    { client := d.client.step J e
      returned := d.returned ++ d.client.answered e
      tokenTarget := d.client.targetAfter .token d.tokenTarget e
      userTarget := d.client.targetAfter .user d.userTarget e }
  | .killed => { d with client := initialClient d.client.storage }

/-- What a step restores is a pair that one response returned. -/
def RestoresReturned (J : UserJson) : DeviceEvent → Prop
  | .run e => ∀ token user, d.client.restores J e = some (token, user) →
    ∃ u, user = some u ∧ (token, u) ∈ d.returned
  | .killed => True

/-! ## The condition -/

/-- An item is missing, or both were changed last by calls with one target. -/
def Unmixed : Prop :=
  d.client.storage.token = none ∨ d.client.storage.user = none ∨ d.tokenTarget = d.userTarget

instance : Decidable d.Unmixed := inferInstanceAs (Decidable (_ ∨ _))

end Device

namespace Client

variable (c : Client)

/-- The operation is the first of the two reads of a bootstrap. -/
def firstRead (op : ℕ) : Thunk → Bool
  | .readingSession a b =>
    (op = a ∧ c.promise b = .pending) ∨ (op = b ∧ c.promise a = .pending)
  | _ => false

/-- A bootstrap has read the other item, and still waits for this one. -/
def halfRead (key : StorageKey) : Thunk → Bool
  | .readingSession a b =>
    match key with
    | .token => c.promise a = .pending ∧ (c.promise b).isFulfilled
    | .user => c.promise b = .pending ∧ (c.promise a).isFulfilled
  | _ => false

end Client

namespace Device

variable (d : Device)

/-- The operation can be performed: no bootstrap begins to read two items of different calls, and
no item is written that a bootstrap still has to read. -/
def CanPerform (op : ℕ) : StorageOperation → Prop
  | .getItem _ => (∃ t ∈ d.client.thunks, d.client.firstRead op t) → d.Unmixed
  | .setItem key _ => ∀ t ∈ d.client.thunks, ¬ d.client.halfRead key t
  | .removeItem _ => True

instance (op : ℕ) : (a : StorageOperation) → Decidable (d.CanPerform op a)
  | .getItem _ => inferInstanceAs (Decidable (_ → _))
  | .setItem _ _ => inferInstanceAs (Decidable (∀ _ ∈ _, _))
  | .removeItem _ => isTrue trivial

/-- The storage operation that an event performs, if it performs one, can be performed. -/
def ReadsWhole : DeviceEvent → Prop
  | .run e => ∀ p ∈ d.client.performed e, d.CanPerform p.1 p.2
  | .killed => True

instance : (e : DeviceEvent) → Decidable (d.ReadsWhole e)
  | .run _ => inferInstanceAs (Decidable (∀ _ ∈ _, _))
  | .killed => isTrue trivial

end Device

/-! ## Calls and their operations -/

/-- A token and a user's text of one response, unless one of them is missing. -/
def SessionStorage.Matched (J : UserJson) (returned : List (String × SanitizedUser))
    (s : SessionStorage) : Prop :=
  ∀ token text, s.token = some token → s.user = some text →
    ∃ u, (token, u) ∈ returned ∧ text = J.stringify u

/-- The two operations of a bootstrap, of a login with one of these responses, or of a logout. -/
inductive StorageCall (J : UserJson) (returned : List (String × SanitizedUser)) :
    StorageOperation × StorageOperation → Prop
  | read : StorageCall J returned (.getItem .token, .getItem .user)
  | persist {token : String} {u : SanitizedUser} (h : (token, u) ∈ returned) :
    StorageCall J returned (.setItem .token token, .setItem .user (J.stringify u))
  | remove : StorageCall J returned (.removeItem .token, .removeItem .user)

section Calls

variable {J : UserJson} {returned returned' : List (String × SanitizedUser)}

theorem SessionStorage.Matched.mono {s : SessionStorage} (h : s.Matched J returned)
    (hsub : returned ⊆ returned') : s.Matched J returned' := by
  intro token text htoken htext
  obtain ⟨u, hu, rfl⟩ := h token text htoken htext
  exact ⟨u, hsub hu, rfl⟩

/-- Items may be lost. -/
theorem SessionStorage.Matched.of_lost {s s' : SessionStorage} (h : s.Matched J returned)
    (htoken : s'.token = s.token ∨ s'.token = none)
    (huser : s'.user = s.user ∨ s'.user = none) : s'.Matched J returned := by
  intro token text ht hu
  rcases htoken with htoken | htoken
  · rcases huser with huser | huser
    · exact h token text (htoken ▸ ht) (huser ▸ hu)
    · simp [huser] at hu
  · simp [htoken] at ht

theorem SessionStorage.matched_of_missing {s : SessionStorage}
    (h : s.token = none ∨ s.user = none) : s.Matched J returned := by
  intro token text htoken htext
  rcases h with hnone | hnone
  · simp [hnone] at htoken
  · simp [hnone] at htext

theorem StorageCall.mono {p : StorageOperation × StorageOperation}
    (h : StorageCall J returned p) (hsub : returned ⊆ returned') : StorageCall J returned' p := by
  cases h with
  | read => exact .read
  | persist h => exact .persist (hsub h)
  | remove => exact .remove

theorem StorageCall.matched {x y : StorageOperation} (h : StorageCall J returned (x, y)) :
    SessionStorage.Matched J returned ⟨x.text, y.text⟩ := by
  intro token text htoken htext
  cases h with
  | read => cases htoken
  | persist h =>
    cases htoken
    cases htext
    exact ⟨_, h, rfl⟩
  | remove => cases htoken

theorem StorageCall.keys {x y : StorageOperation} (h : StorageCall J returned (x, y)) :
    x.key = .token ∧ y.key = .user := by
  cases h <;> exact ⟨rfl, rfl⟩

/-- The positions of pairs in their joined list. -/
theorem getElem?_flatMap_pair {α : Type} (l : List (α × α)) (k : ℕ) :
    (l.flatMap fun p => [p.1, p.2])[2 * k]? = l[k]?.map Prod.fst ∧
      (l.flatMap fun p => [p.1, p.2])[2 * k + 1]? = l[k]?.map Prod.snd := by
  induction l generalizing k with
  | nil => simp
  | cons p l ih =>
    cases k with
    | zero => simp
    | succ k => exact ih k

end Calls

namespace Client

variable {J : UserJson} {returned returned' : List (String × SanitizedUser)} {c c' : Client}

/-- The operations are those of calls, two by two. -/
def Paired (J : UserJson) (returned : List (String × SanitizedUser)) (c : Client) : Prop :=
  ∃ calls : List (StorageOperation × StorageOperation),
    c.started = calls.flatMap (fun p => [p.1, p.2]) ∧ ∀ p ∈ calls, StorageCall J returned p

theorem Paired.mono (h : c.Paired J returned) (hsub : returned ⊆ returned') :
    c.Paired J returned' := by
  obtain ⟨calls, hstarted, hcalls⟩ := h
  exact ⟨calls, hstarted, fun p hp => (hcalls p hp).mono hsub⟩

/-- A call starts two operations. -/
theorem Paired.append (h : c.Paired J returned) {x y : StorageOperation}
    (hcall : StorageCall J returned (x, y))
    (hoperations : c'.operations = c.operations ++ [(x, .pending), (y, .pending)]) :
    c'.Paired J returned := by
  obtain ⟨calls, hstarted, hcalls⟩ := h
  refine ⟨calls ++ [(x, y)], ?_, ?_⟩
  · rw [started, hoperations, List.map_append, List.flatMap_append, ← hstarted]
    rfl
  · intro p hp
    rcases List.mem_append.mp hp with hp | hp
    · exact hcalls p hp
    · rw [List.mem_singleton.mp hp]
      exact hcall

/-- The call of an operation, which is the first of its pair at an even position. -/
theorem Paired.call (h : c.Paired J returned) {op : ℕ} {a : StorageOperation}
    (ha : c.started[op]? = some a) :
    ∃ x y, StorageCall J returned (x, y) ∧ c.target op = ⟨x.text, y.text⟩ ∧ (a = x ∨ a = y) := by
  obtain ⟨calls, hstarted, hcalls⟩ := h
  have hpair := getElem?_flatMap_pair calls (op / 2)
  rw [← hstarted] at hpair
  -- an even position is that of the first operation of its pair, an odd one of the second
  have hposition : op = 2 * (op / 2) ∨ op = 2 * (op / 2) + 1 := by omega
  obtain ⟨p, hp, hap⟩ : ∃ p, calls[op / 2]? = some p ∧ (a = p.1 ∨ a = p.2) := by
    rcases hposition with heven | hodd
    · rw [heven, hpair.1] at ha
      obtain ⟨p, hp, rfl⟩ := Option.map_eq_some_iff.mp ha
      exact ⟨p, hp, .inl rfl⟩
    · rw [hodd, hpair.2] at ha
      obtain ⟨p, hp, rfl⟩ := Option.map_eq_some_iff.mp ha
      exact ⟨p, hp, .inr rfl⟩
  refine ⟨p.1, p.2, hcalls p (List.mem_of_getElem? hp), ?_, hap⟩
  simp only [target, hpair.1, hpair.2, hp, Option.map_some, Option.bind_some]

/-- An operation leaves its item as the target of its call has it. -/
theorem Paired.target_matched (h : c.Paired J returned) {op : ℕ} {a : StorageOperation}
    (ha : c.started[op]? = some a) :
    (c.target op).Matched J returned ∧ a.text = (c.target op).get a.key := by
  obtain ⟨x, y, hcall, htarget, hmem⟩ := h.call ha
  obtain ⟨hx, hy⟩ := hcall.keys
  rw [htarget]
  refine ⟨hcall.matched, ?_⟩
  rcases hmem with rfl | rfl
  · rw [hx]
    rfl
  · rw [hy]
    rfl

/-- What the read of an item has found, or will find if the storage stays as it is. -/
def found (c : Client) (key : StorageKey) (op : ℕ) : Option String :=
  match c.promise op with
  | .pending => c.storage.get key
  | .fulfilled value => value
  | .rejected _ => none

/-- A bootstrap reads the two items, and once it has begun to read they are of one response. -/
structure ReadsMatched (J : UserJson) (returned : List (String × SanitizedUser)) (c : Client)
    (a b : ℕ) : Prop where
  token : c.started[a]? = some (.getItem .token)
  user : c.started[b]? = some (.getItem .user)
  matched : (c.promise a = .pending ∧ c.promise b = .pending) ∨
    SessionStorage.Matched J returned ⟨c.found .token a, c.found .user b⟩

end Client

/-- The invariant of the device. -/
structure Device.Consistent (J : UserJson) (d : Device) : Prop where
  token : d.client.storage.token = d.tokenTarget.token
  user : d.client.storage.user = d.userTarget.user
  tokenTarget : d.tokenTarget.Matched J d.returned
  userTarget : d.userTarget.Matched J d.returned
  paired : d.client.Paired J d.returned
  reads : ∀ a b, .readingSession a b ∈ d.client.thunks → d.client.ReadsMatched J d.returned a b

/-- Items of calls with one target are of one response. -/
theorem Device.Consistent.matched_of_unmixed {J : UserJson} {d : Device} (h : d.Consistent J)
    (hunmixed : d.Unmixed) : d.client.storage.Matched J d.returned := by
  rcases hunmixed with hnone | hnone | hone
  · exact SessionStorage.matched_of_missing (.inl hnone)
  · exact SessionStorage.matched_of_missing (.inr hnone)
  · exact h.tokenTarget.of_lost (.inl h.token) (.inl (by rw [h.user, hone]))

namespace Client

variable {J : UserJson} {returned returned' : List (String × SanitizedUser)} {c c' : Client}

/-! ## Steps that perform no storage operation -/

/-- What such a step can do: nothing that matters here, or start the two operations of a call. -/
inductive StepEffect (J : UserJson) (returned : List (String × SanitizedUser)) (c c' : Client) :
    Prop
  | quiet (storage : c'.storage = c.storage) (operations : c'.operations = c.operations)
      (reads : ∀ a b, Thunk.readingSession a b ∈ c'.thunks → .readingSession a b ∈ c.thunks)
  | starts (x y : StorageOperation) (call : StorageCall J returned (x, y))
      (storage : c'.storage = c.storage)
      (operations : c'.operations = c.operations ++ [(x, .pending), (y, .pending)])
      (reads : ∀ a b, Thunk.readingSession a b ∈ c'.thunks → .readingSession a b ∈ c.thunks ∨
        (a = c.operations.length ∧ b = a + 1 ∧ x = .getItem .token ∧ y = .getItem .user))

/-- A thunk that goes on to wait for something else begins no read. -/
theorem reads_of_wait {i a b : ℕ} {t : Thunk} (ht : t ≠ .readingSession a b)
    (h : .readingSession a b ∈ (c.wait i t).thunks) : .readingSession a b ∈ c.thunks := by
  rcases List.mem_or_eq_of_mem_set h with hmem | rfl
  · exact hmem
  · exact absurd rfl ht

theorem reads_of_spawn {a b : ℕ} {t : Thunk} (ht : t ≠ .readingSession a b)
    (h : .readingSession a b ∈ (c.spawn t).thunks) : .readingSession a b ∈ c.thunks := by
  rcases List.mem_append.mp h with hmem | hmem
  · exact hmem
  · exact absurd (List.mem_singleton.mp hmem).symm ht

/-- A thunk that goes on and waits no more. -/
theorem reads_of_settled {i : ℕ} : ∀ a b, Thunk.readingSession a b ∈ (c.wait i .settled).thunks →
    .readingSession a b ∈ c.thunks := by
  intro a b h
  exact reads_of_wait (by simp) h

theorem stepEffect_storageAwaited (i : ℕ) : StepEffect J returned c (c.storageAwaited J i) := by
  have hwait : ∀ a b, Thunk.readingSession a b ∈ (c.wait i .settled).thunks →
      .readingSession a b ∈ c.thunks := reads_of_settled
  unfold storageAwaited
  -- a bootstrap, a login or registration, a logout, and a thunk that waits for something else
  split
  · split
    · rename_i a b _ read _
      unfold sessionRead
      split
      · exact .quiet rfl rfl hwait
      · exact .quiet rfl rfl hwait
      · exact .quiet rfl rfl hwait
    · exact .quiet rfl rfl fun _ _ h => h
  · split
    · rename_i saved _
      cases saved with
      | ok values => exact .quiet rfl rfl hwait
      | error message => exact .quiet rfl rfl hwait
    · exact .quiet rfl rfl fun _ _ h => h
  · split
    · rename_i removed _
      cases removed with
      | ok values => exact .quiet rfl rfl hwait
      | error message => exact .quiet rfl rfl hwait
    · exact .quiet rfl rfl fun _ _ h => h
  · exact .quiet rfl rfl fun _ _ h => h

theorem stepEffect_apiAnswered (i : ℕ) (answer : Except String ResponseData) :
    StepEffect J returned c (c.apiAnswered i answer) := by
  have hwait : ∀ a b, Thunk.readingSession a b ∈ (c.wait i .settled).thunks →
      .readingSession a b ∈ c.thunks := reads_of_settled
  unfold apiAnswered
  split
  · rename_i call token _
    cases answer with
    | error message => cases call <;> exact .quiet rfl rfl hwait
    | ok data =>
      cases call with
      | fetchLessons => exact .quiet rfl rfl hwait
      | fetchProgress => exact .quiet rfl rfl hwait
      | submitProgress lessonId score =>
        refine .quiet rfl rfl fun a b h => hwait a b ?_
        exact reads_of_spawn (by simp) h
  · exact .quiet rfl rfl fun _ _ h => h

theorem stepEffect_authAnswered (i : ℕ) (answer : Except String (String × SanitizedUser)) :
    StepEffect J (c.answered (.authAnswered i answer)) c (c.authAnswered J i answer) := by
  unfold authAnswered
  split
  · rename_i endpoint hthunk
    cases answer with
    | error message =>
      exact .quiet rfl rfl fun a b h => reads_of_wait (by simp) h
    | ok response =>
      refine .starts _ _ (.persist ?_) rfl rfl fun a b h => .inl (reads_of_wait (by simp) h)
      simp [answered, hthunk]
  · exact .quiet rfl rfl fun _ _ h => h

/-- What a step that performs no storage operation can do, unless it rejects one. -/
theorem step_effect (J : UserJson) (c : Client) (e : ClientEvent)
    (hcompletes : ∀ op, e ≠ .storageCompletes op)
    (hrejects : ∀ op message, e ≠ .storageRejects op message) :
    StepEffect J (c.answered e) c (c.step J e) := by
  cases e with
  | bootstrapSession =>
    refine .starts _ _ .read rfl rfl fun a b h => ?_
    rcases List.mem_append.mp h with hmem | hmem
    · exact .inl hmem
    · cases List.mem_singleton.mp hmem
      exact .inr ⟨rfl, rfl, rfl, rfl⟩
  | loginUser => exact .quiet rfl rfl fun a b h => reads_of_spawn (by simp) h
  | registerUser => exact .quiet rfl rfl fun a b h => reads_of_spawn (by simp) h
  | logoutUser => exact .starts _ _ .remove rfl rfl fun a b h => .inl (reads_of_spawn (by simp) h)
  | fetchLessons => exact .quiet rfl rfl fun a b h => reads_of_spawn (by simp) h
  | fetchProgress => exact .quiet rfl rfl fun a b h => reads_of_spawn (by simp) h
  | submitProgress lessonId score =>
    exact .quiet rfl rfl fun a b h => reads_of_spawn (by simp) h
  | storageCompletes op => exact absurd rfl (hcompletes op)
  | storageRejects op message => exact absurd rfl (hrejects op message)
  | storageAwaited i => exact stepEffect_storageAwaited i
  | authAnswered i answer => exact stepEffect_authAnswered i answer
  | apiAnswered i answer => exact stepEffect_apiAnswered i answer

/-- More operations and responses change nothing for the operations there are. -/
theorem ReadsMatched.append {l : List (StorageOperation × StoragePromise)} {a b : ℕ}
    (h : c.ReadsMatched J returned a b) (hstorage : c'.storage = c.storage)
    (hoperations : c'.operations = c.operations ++ l) (hsub : returned ⊆ returned') :
    c'.ReadsMatched J returned' a b := by
  -- the operations there are keep their positions
  have hstarted : ∀ {k x}, c.started[k]? = some x →
      c'.started[k]? = some x ∧ c'.promise k = c.promise k := by
    intro k x hk
    have hlt : k < c.operations.length := by
      simpa [started] using (List.getElem?_eq_some_iff.mp hk).1
    refine ⟨?_, ?_⟩
    · rw [started, hoperations, List.map_append, List.getElem?_append_left (by simpa using hlt)]
      exact hk
    · rw [promise, hoperations, List.getElem?_append_left hlt]
      rfl
  obtain ⟨ha, hpa⟩ := hstarted h.token
  obtain ⟨hb, hpb⟩ := hstarted h.user
  refine ⟨ha, hb, ?_⟩
  rw [found, found, hpa, hpb, hstorage]
  exact h.matched.imp_right fun hm => hm.mono hsub

/-! ## Steps that settle a storage operation -/

/-- The promise of an operation is settled, and the storage is changed. -/
def settle (c : Client) (op : ℕ) (a : StorageOperation) (p : StoragePromise)
    (storage : SessionStorage) : Client :=
  { c with storage, operations := c.operations.set op (a, p) }

section Settle

variable {op k : ℕ} {a : StorageOperation} {p : StoragePromise} {storage : SessionStorage}
  {key : StorageKey}

theorem storageCompletes_eq (h : c.operations[op]? = some (a, .pending)) :
    c.storageCompletes op =
      c.settle op a (.fulfilled (a.perform c.storage).2) (a.perform c.storage).1 := by
  simp only [storageCompletes, h, settle]

theorem storageRejects_eq (h : c.operations[op]? = some (a, .pending)) (message : String) :
    c.storageRejects op message = c.settle op a (.rejected message) c.storage := by
  simp only [storageRejects, h, settle]

/-- An operation that has ended does not end again. -/
theorem step_of_not_pending (c : Client) {op : ℕ} (message : String)
    (hop : ∀ a, c.operations[op]? ≠ some (a, .pending)) :
    c.step J (.storageCompletes op) = c ∧ c.step J (.storageRejects op message) = c := by
  rcases hcase : c.operations[op]? with _ | ⟨a, _ | value | reason⟩
  · constructor <;> simp [step, storageCompletes, storageRejects, hcase]
  · exact absurd hcase (hop a)
  · constructor <;> simp [step, storageCompletes, storageRejects, hcase]
  · constructor <;> simp [step, storageCompletes, storageRejects, hcase]

theorem started_of_pending (h : c.operations[op]? = some (a, .pending)) :
    c.started[op]? = some a := by
  simp [started, h]

theorem promise_of_pending (h : c.operations[op]? = some (a, .pending)) :
    c.promise op = .pending := by
  simp [promise, h]

theorem started_settle (h : c.operations[op]? = some (a, .pending)) :
    (c.settle op a p storage).started = c.started := by
  have hself : c.started[op]? = some a := started_of_pending h
  obtain ⟨hlt, hget⟩ := List.getElem?_eq_some_iff.mp hself
  show (c.operations.set op (a, p)).map Prod.fst = c.started
  rw [List.map_set, ← hget]
  exact List.set_getElem_self hlt

theorem promise_settle_self (h : c.operations[op]? = some (a, .pending)) :
    (c.settle op a p storage).promise op = p := by
  have hlt := (List.getElem?_eq_some_iff.mp h).1
  simp [promise, settle, hlt]

theorem promise_settle_of_ne (hne : k ≠ op) :
    (c.settle op a p storage).promise k = c.promise k := by
  simp [promise, settle, List.getElem?_set_ne hne.symm]

theorem found_settle_of_ne (hne : k ≠ op) :
    (c.settle op a p storage).found key k =
      if c.promise k = .pending then storage.get key else c.found key k := by
  rw [found, promise_settle_of_ne hne, found]
  cases c.promise k with
  | pending => rfl
  | fulfilled value => rfl
  | rejected message => rfl

theorem found_of_pending (h : c.promise k = .pending) : c.found key k = c.storage.get key := by
  rw [found, h]

theorem Paired.settle (h : c.Paired J returned) (ha : c.operations[op]? = some (a, .pending)) :
    (c.settle op a p storage).Paired J returned := by
  rwa [Paired, started_settle ha]

end Settle

/-! ## Reads under way -/

section Reads

variable {op : ℕ} {a b : ℕ}

/-- A read finds what it was going to find. -/
theorem found_settle_read {key key' : StorageKey} {k : ℕ}
    (hop : c.operations[op]? = some (.getItem key, .pending))
    (hk : c.started[k]? = some (.getItem key')) :
    (c.settle op (.getItem key) (.fulfilled (c.storage.get key)) c.storage).found key' k =
      c.found key' k := by
  by_cases hne : k = op
  · subst hne
    have hkey : key' = key := by
      simpa [hk] using started_of_pending hop
    subst hkey
    rw [found_of_pending (promise_of_pending hop), found, promise_settle_self hop]
  · rw [found_settle_of_ne hne]
    split
    · rename_i hpending
      exact (found_of_pending hpending).symm
    · rfl

theorem ReadsMatched.read {key : StorageKey} (h : c.ReadsMatched J returned a b)
    (hop : c.operations[op]? = some (.getItem key, .pending))
    (hfirst : c.firstRead op (.readingSession a b) = true → c.storage.Matched J returned) :
    (c.settle op (.getItem key) (.fulfilled (c.storage.get key)) c.storage).ReadsMatched J
      returned a b := by
  obtain ⟨ha, hb, hm⟩ := h
  refine ⟨by rwa [started_settle hop], by rwa [started_settle hop], ?_⟩
  rw [found_settle_read hop ha, found_settle_read hop hb]
  rcases hm with ⟨hpa, hpb⟩ | hm
  · by_cases hread : op = a ∨ op = b
    · -- the bootstrap begins to read
      refine .inr ?_
      rw [found_of_pending hpa, found_of_pending hpb]
      refine hfirst ?_
      rcases hread with rfl | rfl
      · simp [firstRead, hpb]
      · simp [firstRead, hpa]
    · -- the read of another bootstrap
      push Not at hread
      refine .inl ?_
      rw [promise_settle_of_ne hread.1.symm, promise_settle_of_ne hread.2.symm]
      exact ⟨hpa, hpb⟩
  · exact .inr hm

/-- An operation that is no read is not one of the two of a bootstrap. -/
theorem ReadsMatched.ne_of_started {x : StorageOperation} (h : c.ReadsMatched J returned a b)
    (hop : c.started[op]? = some x) (hx : ∀ key, x ≠ .getItem key) : a ≠ op ∧ b ≠ op := by
  constructor
  · rintro rfl
    exact hx .token (Option.some.inj (hop.symm.trans h.token))
  · rintro rfl
    exact hx .user (Option.some.inj (hop.symm.trans h.user))

theorem ReadsMatched.remove {key : StorageKey} {p : StoragePromise}
    (h : c.ReadsMatched J returned a b)
    (hop : c.operations[op]? = some (.removeItem key, .pending)) :
    (c.settle op (.removeItem key) p (c.storage.put key none)).ReadsMatched J returned a b := by
  obtain ⟨hane, hbne⟩ := h.ne_of_started (started_of_pending hop) (by simp)
  obtain ⟨ha, hb, hm⟩ := h
  refine ⟨by rwa [started_settle hop], by rwa [started_settle hop], ?_⟩
  rw [promise_settle_of_ne hane, promise_settle_of_ne hbne]
  refine hm.imp_right fun hm => ?_
  -- what is still to be read may be gone
  have hlost : ∀ {key' k}, k ≠ op →
      (c.settle op (.removeItem key) p (c.storage.put key none)).found key' k = c.found key' k ∨
        (c.settle op (.removeItem key) p (c.storage.put key none)).found key' k = none := by
    intro key' k hne
    rw [found_settle_of_ne hne]
    split
    · rename_i hpending
      rw [found_of_pending hpending]
      cases key <;> cases key' <;> simp [SessionStorage.put, SessionStorage.get]
    · exact .inl rfl
  exact hm.of_lost (hlost hane) (hlost hbne)

/-- A read that was rejected finds nothing. -/
theorem found_of_not_fulfilled {key : StorageKey} {k : ℕ} (hpending : c.promise k ≠ .pending)
    (hfulfilled : (c.promise k).isFulfilled = false) : c.found key k = none := by
  rw [found]
  cases hp : c.promise k with
  | pending => exact absurd hp hpending
  | fulfilled value => simp [hp, StoragePromise.isFulfilled] at hfulfilled
  | rejected message => rfl

theorem ReadsMatched.write {key : StorageKey} {text : String} {p : StoragePromise}
    (h : c.ReadsMatched J returned a b)
    (hop : c.operations[op]? = some (.setItem key text, .pending))
    (hhalf : c.halfRead key (.readingSession a b) = false) :
    (c.settle op (.setItem key text) p (c.storage.put key (some text))).ReadsMatched J returned
      a b := by
  obtain ⟨hane, hbne⟩ := h.ne_of_started (started_of_pending hop) (by simp)
  obtain ⟨ha, hb, hm⟩ := h
  refine ⟨by rwa [started_settle hop], by rwa [started_settle hop], ?_⟩
  rw [promise_settle_of_ne hane, promise_settle_of_ne hbne]
  -- only a read of this item that is still pending finds something else
  have hkeep : ∀ {key' k}, k ≠ op → key' ≠ key ∨ c.promise k ≠ .pending →
      (c.settle op (.setItem key text) p (c.storage.put key (some text))).found key' k =
        c.found key' k := by
    intro key' k hne hor
    rw [found_settle_of_ne hne]
    split
    · rename_i hpending
      have hother := hor.resolve_right (not_not_intro hpending)
      rw [found_of_pending hpending]
      cases key <;> cases key' <;> first | rfl | exact absurd rfl hother
    · rfl
  -- before the first read nothing has to match
  by_cases hboth : c.promise a = .pending ∧ c.promise b = .pending
  · exact .inl hboth
  refine .inr ?_
  have hm := hm.resolve_left hboth
  cases key with
  | token =>
    rw [hkeep hbne (.inl (by simp))]
    by_cases hpa : c.promise a = .pending
    · -- the other read was rejected, or the condition would forbid the write
      refine SessionStorage.matched_of_missing (.inr ?_)
      exact found_of_not_fulfilled (fun hpb => hboth ⟨hpa, hpb⟩)
        (by simpa [halfRead, hpa] using hhalf)
    · rw [hkeep hane (.inr hpa)]
      exact hm
  | user =>
    rw [hkeep hane (.inl (by simp))]
    by_cases hpb : c.promise b = .pending
    · refine SessionStorage.matched_of_missing (.inl ?_)
      exact found_of_not_fulfilled (fun hpa => hboth ⟨hpa, hpb⟩)
        (by simpa [halfRead, hpb] using hhalf)
    · rw [hkeep hbne (.inr hpb)]
      exact hm

theorem ReadsMatched.reject {x : StorageOperation} {message : String}
    (h : c.ReadsMatched J returned a b) (hop : c.operations[op]? = some (x, .pending)) :
    (c.settle op x (.rejected message) c.storage).ReadsMatched J returned a b := by
  obtain ⟨ha, hb, hm⟩ := h
  refine ⟨by rwa [started_settle hop], by rwa [started_settle hop], ?_⟩
  -- a bootstrap with a rejected read restores nothing
  have hnone : ∀ {key}, (c.settle op x (.rejected message) c.storage).found key op = none := by
    intro key
    rw [found, promise_settle_self hop]
  by_cases hane : a = op
  · subst hane
    exact .inr (SessionStorage.matched_of_missing (.inl hnone))
  by_cases hbne : b = op
  · subst hbne
    exact .inr (SessionStorage.matched_of_missing (.inr hnone))
  have hkeep : ∀ {key k}, k ≠ op →
      (c.settle op x (.rejected message) c.storage).found key k = c.found key k := by
    intro key k hne
    rw [found_settle_of_ne hne]
    split
    · rename_i hpending
      exact (found_of_pending hpending).symm
    · rfl
  rw [promise_settle_of_ne hane, promise_settle_of_ne hbne, hkeep hane, hkeep hbne]
  exact hm

end Reads

end Client

namespace Device

variable {J : UserJson} {d : Device}

/-! ## The invariant -/

theorem consistent_freshDevice : freshDevice.Consistent J where
  token := rfl
  user := rfl
  tokenTarget := SessionStorage.matched_of_missing (.inl rfl)
  userTarget := SessionStorage.matched_of_missing (.inl rfl)
  paired := ⟨[], rfl, by simp⟩
  reads := by
    intro a b h
    cases h

/-- A restart loses the thunks and the pending operations, and keeps the storage. -/
theorem Consistent.killed (h : d.Consistent J) : (d.step J .killed).Consistent J where
  token := h.token
  user := h.user
  tokenTarget := h.tokenTarget
  userTarget := h.userTarget
  paired := ⟨[], rfl, by simp⟩
  reads := by
    intro a b h
    cases h

theorem performed_eq_none {c : Client} {e : ClientEvent}
    (hcompletes : ∀ op, e ≠ .storageCompletes op) : c.performed e = none := by
  cases e with
  | storageCompletes op => exact absurd rfl (hcompletes op)
  | _ => rfl

/-- An event that performs no operation changes no target. -/
theorem step_run_eq {e : ClientEvent} (hcompletes : ∀ op, e ≠ .storageCompletes op) :
    d.step J (.run e) =
      ⟨d.client.step J e, d.returned ++ d.client.answered e, d.tokenTarget, d.userTarget⟩ := by
  simp only [step, Client.targetAfter, performed_eq_none hcompletes]

/-- The invariant after more operations and responses, put together from its parts. -/
theorem Consistent.extend (h : d.Consistent J) {c' : Client}
    {returned' : List (String × SanitizedUser)} (hsub : d.returned ⊆ returned')
    (hstorage : c'.storage = d.client.storage) (hpaired : c'.Paired J returned')
    (hreads : ∀ a b, .readingSession a b ∈ c'.thunks → c'.ReadsMatched J returned' a b) :
    Consistent J ⟨c', returned', d.tokenTarget, d.userTarget⟩ where
  token := by
    rw [hstorage]
    exact h.token
  user := by
    rw [hstorage]
    exact h.user
  tokenTarget := h.tokenTarget.mono hsub
  userTarget := h.userTarget.mono hsub
  paired := hpaired
  reads := hreads

/-- Events that neither perform nor reject an operation keep the invariant. -/
theorem Consistent.run_effect (h : d.Consistent J) {e : ClientEvent}
    (hcompletes : ∀ op, e ≠ .storageCompletes op)
    (hrejects : ∀ op message, e ≠ .storageRejects op message) :
    (d.step J (.run e)).Consistent J := by
  have hsub : d.returned ⊆ d.returned ++ d.client.answered e := List.subset_append_left _ _
  have hpaired := h.paired.mono hsub
  rw [step_run_eq hcompletes]
  cases Client.step_effect J d.client e hcompletes hrejects with
  | quiet hstorage hoperations hthunks =>
    apply h.extend hsub hstorage
    · simpa only [Client.Paired, Client.started, hoperations] using hpaired
    · intro a b hab
      have hold := h.reads a b (hthunks a b hab)
      exact hold.append hstorage (hoperations.trans (List.append_nil _).symm) hsub
  | starts x y hcall hstorage hoperations hthunks =>
    apply h.extend hsub hstorage
    · exact hpaired.append (hcall.mono (List.subset_append_right _ _)) hoperations
    · intro a b hab
      rcases hthunks a b hab with hold | ⟨rfl, rfl, rfl, rfl⟩
      · exact (h.reads a b hold).append hstorage hoperations hsub
      · -- the bootstrap has read nothing yet
        refine ⟨?_, ?_, .inl ⟨?_, ?_⟩⟩ <;> simp [Client.started, Client.promise, hoperations]

/-- The invariant after an operation is performed, put together from its parts. -/
theorem Consistent.settle (h : d.Consistent J) {op : ℕ} {a : StorageOperation}
    {p : StoragePromise} {storage tokenTarget userTarget : SessionStorage}
    (hop : d.client.operations[op]? = some (a, .pending))
    (htoken : storage.token = tokenTarget.token) (huser : storage.user = userTarget.user)
    (htokenTarget : tokenTarget = d.tokenTarget ∨ tokenTarget = d.client.target op)
    (huserTarget : userTarget = d.userTarget ∨ userTarget = d.client.target op)
    (hreads : ∀ i j, .readingSession i j ∈ d.client.thunks →
      (d.client.settle op a p storage).ReadsMatched J d.returned i j) :
    Consistent J ⟨d.client.settle op a p storage, d.returned, tokenTarget, userTarget⟩ := by
  have htarget := (h.paired.target_matched (Client.started_of_pending hop)).1
  refine ⟨htoken, huser, ?_, ?_, h.paired.settle hop, hreads⟩
  · rcases htokenTarget with rfl | rfl
    · exact h.tokenTarget
    · exact htarget
  · rcases huserTarget with rfl | rfl
    · exact h.userTarget
    · exact htarget

theorem Consistent.run_completes (h : d.Consistent J) {op : ℕ} {a : StorageOperation}
    (hop : d.client.operations[op]? = some (a, .pending)) (hcan : d.CanPerform op a) :
    (d.step J (.run (.storageCompletes op))).Consistent J := by
  have htext := (h.paired.target_matched (Client.started_of_pending hop)).2
  have hperformed : d.client.performed (.storageCompletes op) = some (op, a) := by
    simp only [Client.performed, hop]
  simp only [step, Client.step, Client.storageCompletes_eq hop, Client.targetAfter, hperformed,
    Client.answered, List.append_nil]
  cases a with
  | getItem key =>
    -- the first read of a bootstrap is where the condition is needed
    refine h.settle hop h.token h.user (.inl rfl) (.inl rfl) fun i j hij => ?_
    refine (h.reads i j hij).read hop fun hfirst => ?_
    exact h.matched_of_unmixed (hcan ⟨_, hij, hfirst⟩)
  | setItem key text =>
    -- the item and its target change together
    have hreads : ∀ i j, .readingSession i j ∈ d.client.thunks → (d.client.settle op
        (.setItem key text) (.fulfilled none) (d.client.storage.put key (some text))).ReadsMatched
          J d.returned i j := fun i j hij =>
      (h.reads i j hij).write hop (Bool.eq_false_iff.mpr (hcan _ hij))
    cases key with
    | token => exact h.settle hop htext h.user (.inr rfl) (.inl rfl) hreads
    | user => exact h.settle hop h.token htext (.inl rfl) (.inr rfl) hreads
  | removeItem key =>
    have hreads : ∀ i j, .readingSession i j ∈ d.client.thunks → (d.client.settle op
        (.removeItem key) (.fulfilled none) (d.client.storage.put key none)).ReadsMatched
          J d.returned i j := fun i j hij => (h.reads i j hij).remove hop
    cases key with
    | token => exact h.settle hop htext h.user (.inr rfl) (.inl rfl) hreads
    | user => exact h.settle hop h.token htext (.inl rfl) (.inr rfl) hreads

/-- An operation that has ended does not end again. -/
theorem step_of_not_pending {op : ℕ} (message : String)
    (hop : ∀ a, d.client.operations[op]? ≠ some (a, .pending)) :
    d.step J (.run (.storageCompletes op)) = d ∧
      d.step J (.run (.storageRejects op message)) = d := by
  obtain ⟨hcompletes, hrejects⟩ := Client.step_of_not_pending (J := J) d.client message hop
  have hperformed : d.client.performed (.storageCompletes op) = none := by
    simp only [Client.performed]
  constructor
  · simp [step, hcompletes, Client.targetAfter, hperformed, Client.answered]
  · simp [step, hrejects, Client.targetAfter, Client.performed, Client.answered]

theorem Consistent.run_rejects (h : d.Consistent J) {op : ℕ} {a : StorageOperation}
    (message : String) (hop : d.client.operations[op]? = some (a, .pending)) :
    (d.step J (.run (.storageRejects op message))).Consistent J := by
  simp only [step, Client.step, Client.storageRejects_eq hop, Client.targetAfter, Client.performed,
    Client.answered, List.append_nil]
  exact h.settle hop h.token h.user (.inl rfl) (.inl rfl) fun i j hij =>
    (h.reads i j hij).reject hop

/-- **A step that meets the condition keeps the invariant.** -/
theorem consistent_step (d : Device) (e : DeviceEvent) (h : d.Consistent J)
    (hreads : d.ReadsWhole e) : (d.step J e).Consistent J := by
  cases e with
  | killed => exact h.killed
  | run e =>
    by_cases hcompletes : ∃ op, e = .storageCompletes op
    · obtain ⟨op, rfl⟩ := hcompletes
      by_cases hpending : ∃ a, d.client.operations[op]? = some (a, .pending)
      · obtain ⟨a, hop⟩ := hpending
        refine h.run_completes hop (hreads (op, a) ?_)
        simp [Client.performed, hop]
      · rwa [(step_of_not_pending "" fun a hop => hpending ⟨a, hop⟩).1]
    by_cases hrejects : ∃ op message, e = .storageRejects op message
    · obtain ⟨op, message, rfl⟩ := hrejects
      by_cases hpending : ∃ a, d.client.operations[op]? = some (a, .pending)
      · obtain ⟨a, hop⟩ := hpending
        exact h.run_rejects message hop
      · rwa [(step_of_not_pending message fun a hop => hpending ⟨a, hop⟩).2]
    exact h.run_effect (fun op he => hcompletes ⟨op, he⟩)
      fun op message he => hrejects ⟨op, message, he⟩

/-- What a bootstrap restores was read from items of one response. -/
theorem Consistent.restoresReturned (h : d.Consistent J) (hjson : J.ReadsBack) (e : DeviceEvent) :
    d.RestoresReturned J e := by
  cases e with
  | killed => exact trivial
  | run e =>
    intro token user hrestores
    obtain ⟨i, a, b, read, -, hthunk, hread, hrestored, -⟩ := d.client.step_of_restores hrestores
    obtain ⟨x, y, rfl, hstored⟩ := Client.restoredSession_eq_some hrestored
    obtain ⟨rfl, text, rfl, hparse⟩ := Client.storedSession_eq_some hstored
    obtain ⟨ha, hb⟩ := Client.promiseAll_eq_ok hread
    have hmatched : SessionStorage.Matched J d.returned ⟨some token, some text⟩ := by
      have hm := (h.reads a b hthunk).matched.resolve_left (by simp [ha])
      rwa [Client.found, Client.found, ha, hb] at hm
    obtain ⟨u, hu, rfl⟩ := hmatched token text rfl rfl
    refine ⟨u, ?_, hu⟩
    rw [hjson u] at hparse
    exact (Option.some.inj hparse).symm

end Device

/-- **Restored sessions are those of responses.** In every run of the client over restarts in which
no bootstrap begins to read two items of different calls and no item is written that a bootstrap
still has to read, every restored session is a pair that one response returned. -/
theorem restored_session_returned (J : UserJson) (hjson : J.ReadsBack) (events : List DeviceEvent)
    (hreads : StepsMeet (Device.step J) Device.ReadsWhole freshDevice events) :
    StepsMeet (Device.step J) (fun d e => d.RestoresReturned J e) freshDevice events := by
  refine stepsMeet_of_forall_prefix fun past e hp => ?_
  have hpast : past <+: events := (List.prefix_append past [e]).trans hp
  have hconsistent := run_invariant_of_stepsMeet Device.consistent_step
    Device.consistent_freshDevice (hreads.of_prefix hpast)
  exact hconsistent.restoresReturned hjson e

/-- The session of a login that was stored before a restart is restored. -/
theorem stored_session_restored :
    let ada : SanitizedUser := ⟨"u_1", "ada", "ada", "ada@example.com", "Engineer", "Engineer", 0⟩
    let events : List DeviceEvent :=
      [.run .loginUser, .run (.authAnswered 0 (.ok ("token-a", ada))), .run (.storageCompletes 0),
        .run (.storageCompletes 1), .run (.storageAwaited 0), .killed, .run .bootstrapSession,
        .run (.storageCompletes 1), .run (.storageCompletes 0), .run (.storageAwaited 0)]
    StepsMeet (Device.step userJson) (fun d e => d.RestoresReturned userJson e) freshDevice
      events := by
  intro ada events
  exact restored_session_returned userJson userJson_readsBack events (by decide +kernel)

/-- Bob's login stores its token and fails to store its user, who is still ada: after a restart
bob's token is restored with ada. -/
theorem half_written_session_restored :
    ¬ ∀ J : UserJson, J.ReadsBack → ∀ events : List DeviceEvent,
      StepsMeet (Device.step J) (fun d e => d.RestoresReturned J e) freshDevice events := by
  intro h
  let ada : SanitizedUser := ⟨"u_1", "ada", "ada", "ada@example.com", "Engineer", "Engineer", 0⟩
  let bob : SanitizedUser := ⟨"u_2", "bob", "bob", "bob@example.com", "Engineer", "Engineer", 9⟩
  let past : List DeviceEvent :=
    [.run .loginUser, .run (.authAnswered 0 (.ok ("token-a", ada))), .run (.storageCompletes 0),
      .run (.storageCompletes 1), .run (.storageAwaited 0), .run .loginUser,
      .run (.authAnswered 1 (.ok ("token-b", bob))), .run (.storageCompletes 2),
      .run (.storageRejects 3 "disk full"), .run (.storageAwaited 1), .killed,
      .run .bootstrapSession, .run (.storageCompletes 0), .run (.storageCompletes 1)]
  have hrun := h userJson userJson_readsBack (past ++ [.run (.storageAwaited 0)])
  have hlast := (stepsMeet_append.mp hrun).2.1
  obtain ⟨u, hu, hmem⟩ := hlast "token-b" (some ada) (by decide +kernel)
  have hreturned : (run (Device.step userJson) freshDevice past).returned =
      [("token-a", ada), ("token-b", bob)] := by
    decide +kernel
  rw [hreturned, ← Option.some.inj hu] at hmem
  exact absurd hmem (by decide +kernel)

end LanguageGuru
