import LanguageGuru.Backend.Interleavings
import LanguageGuru.Backend.PlainPlatform

/-!
# Concurrent logins

A login that asks for another role stores it and answers with the user that it stored it for. The
memory store hands out a reference to the live record, and the handler reads the record when it
resumes: a login that stored its role after this one, and for the same account, is what it sees. A
login reports the role it asked for exactly when that role is still the last one stored for its
account.

## Main definitions

* `Request.login`: the validated values of a login
* `ReportsRole`: a login that is answered 200 reports the role it asked for
* `lastRole`: the role stored last for an id
* `KeepsRole`: the condition on an action
* `LoginAt`: how far a login is, and what it knows about the state

## Main results

* `loginAt_resume`: a segment of a login whose role is still stored
* `logins_report_roles_iff`: the condition is exact for interleavings
* `login_reports_other_role`: two logins of one account
-/

namespace LanguageGuru

open Process

/-- The validated values of a login that passes the schema. -/
def Request.login (P : Platform) (req : Request) : Option LoginValue :=
  match req.payload, req.endpoint with
  | .parsed body, some .login => (loginSchema P body.orEmpty).toOption
  | _, _ => none

theorem login_eq_some {P : Platform} {req : Request} {value : LoginValue} :
    req.login P = some value ↔ ∃ body, req.payload = .parsed body ∧
      req.endpoint = some .login ∧ loginSchema P body.orEmpty = .ok value := by
  unfold Request.login
  constructor
  · intro h
    split at h
    · rename_i body hp he
      exact ⟨body, hp, he, toOption_eq_some.mp h⟩
    · cases h
  · rintro ⟨body, hp, he, hv⟩
    simp only [hp, he]
    exact toOption_eq_some.mpr hv

/-- The role of the user that a session returns. -/
def Body.sessionRole : Body → Option String
  | .session _ user => some user.role
  | _ => none

/-- A login that asks for a role and is answered 200 returns a user with that role. -/
def ReportsRole (P : Platform) (req : Request) (responses : List Response) : Prop :=
  ∀ value ∈ req.login P, requestedRole value ≠ "" →
    ∀ response ∈ responses, response.status = 200 →
      response.body.sessionRole = some (requestedRole value)

instance (P : Platform) (req : Request) (responses : List Response) :
    Decidable (ReportsRole P req responses) :=
  inferInstanceAs (Decidable (∀ value ∈ req.login P, requestedRole value ≠ "" →
    ∀ response ∈ responses, response.status = 200 →
      response.body.sessionRole = some (requestedRole value)))

/-- The role that a call stores for an id. -/
def roleStored (id : String) : StoreCall → Option String
  | .updateUserRole id' role => if id' = id then some role else none
  | _ => none

/-- The role that the calls stored last for an id. -/
def lastRole (id : String) (calls : List StoreCall) : Option String :=
  (calls.filterMap (roleStored id)).getLast?

/-- A login that has stored its role resumes while it is the one stored last for the account. -/
def KeepsRole (P : Platform) (pool : ApiPool P) : Action Request → Prop
  | .arrive _ => True
  | .resume i => ∀ t ∈ pool.tasks[i]?, ∀ value, t.request.login P = some value →
      ∀ id h next, t.thread = .waiting (.updateUserRole id (requestedRole value)) h next →
        lastRole id pool.calls = some (requestedRole value)

/-! ## The roles in the store -/

theorem lastRole_snoc (id : String) (calls : List StoreCall) (c : StoreCall) :
    lastRole id (calls ++ [c]) = (roleStored id c).or (lastRole id calls) := by
  unfold lastRole
  rw [List.filterMap_append]
  cases h : roleStored id c with
  | none => simp [h]
  | some role => simp [h]

/-- A reference to the account with an id, whose role is the one stored last. -/
structure RoleTracked (s : MemoryState) (calls : List StoreCall) (id : String) (h : Option ℕ) :
    Prop where
  reference : s.users.findIdx? (fun u => u.id = id) = h
  role : ∃ u, s.userById id = some u ∧ lastRole id calls = some u.role

variable {P : Platform} {cfg : Config}

theorem userById_setRole_self (s : MemoryState) (id role : String) :
    (s.setRole id role).userById id = (s.userById id).map fun u => { u with role } := by
  apply Keyed.lookup_update_self
  intro u hid
  exact hid

theorem userById_setRole_other (s : MemoryState) {id id' : String} (hne : id' ≠ id)
    (role : String) : (s.setRole id role).userById id' = s.userById id' := by
  apply Keyed.lookup_update_other hne
  intro u hid
  exact hid

/-- A reference that was found by id is found again. -/
theorem findIdx?_id_of_grows {s s' : MemoryState} (h : Grows s s') {id : String} {i : ℕ}
    (hi : s.users.findIdx? (fun u => u.id = id) = some i) :
    s'.users.findIdx? (fun u => u.id = id) = some i := by
  have hids : ∀ users : List User, users.findIdx? (fun u => u.id = id) =
      (users.map User.id).findIdx? fun x => x = id := by
    intro users
    rw [List.findIdx?_map]
    rfl
  obtain ⟨rest, hrest⟩ := h.ids
  rw [hids] at hi ⊢
  rw [← hrest, List.findIdx?_append, hi]
  rfl

/-- An account stays tracked, whatever is called. -/
theorem RoleTracked.perform {s : MemoryState} {calls : List StoreCall} {id : String}
    {h : Option ℕ} (htracked : RoleTracked s calls id h) (c : StoreCall) :
    RoleTracked ((memoryStore P).perform c s).2 (calls ++ [c]) id h := by
  obtain ⟨u, hu, hrole⟩ := htracked.role
  constructor
  · -- the account is in the list, so that its position does not change
    cases hi : s.users.findIdx? (fun u => u.id = id) with
    | none =>
      have hread := Keyed.findIdx?_bind_getElem? (fun u : User => u.id = id) s.users
      rw [hi, show s.users.find? (fun u => u.id = id) = some u from hu] at hread
      cases hread
    | some i =>
      rw [findIdx?_id_of_grows (grows_perform P c s) hi, ← htracked.reference, hi]
  · rw [lastRole_snoc]
    cases c with
    | createUser payload newId now =>
      refine ⟨u, ?_, hrole⟩
      show Keyed.lookup User.id id (s.users ++ [_]) = some u
      rw [Keyed.lookup_append, show Keyed.lookup User.id id s.users = some u from hu]
      rfl
    | updateUserRole id' role =>
      show ∃ u, (s.setRole id' role).userById id = some u ∧ _
      by_cases hid : id' = id
      · subst hid
        refine ⟨{ u with role }, ?_, by simp [roleStored]⟩
        rw [userById_setRole_self, hu]
        rfl
      · refine ⟨u, ?_, by simp [roleStored, hid, hrole]⟩
        rw [userById_setRole_other s (Ne.symm hid), hu]
    | _ => exact ⟨u, hu, hrole⟩

theorem RoleTracked.replay {id : String} {h : Option ℕ} (cs : List StoreCall) {s : MemoryState}
    {calls : List StoreCall} (htracked : RoleTracked s calls id h) :
    RoleTracked ((memoryStore P).replay s cs) (calls ++ cs) id h := by
  induction cs generalizing s calls with
  | nil =>
    rw [List.append_nil]
    exact htracked
  | cons c cs ih =>
    have hnext := ih (htracked.perform (P := P) c)
    rw [List.append_assoc] at hnext
    exact hnext

/-- An account is tracked from the moment its role is stored. -/
theorem roleTracked_updateUserRole {s : MemoryState} {calls : List StoreCall} {user : User}
    (hmem : user ∈ s.users) (role : String) :
    RoleTracked ((memoryStore P).perform (.updateUserRole user.id role) s).2
      (calls ++ [.updateUserRole user.id role]) user.id
      ((memoryStore P).perform (.updateUserRole user.id role) s).1 := by
  have hfound : ∃ u, s.userById user.id = some u := by
    apply Option.isSome_iff_exists.mp
    apply List.find?_isSome.mpr
    exact ⟨user, hmem, by simp⟩
  obtain ⟨u, hu⟩ := hfound
  constructor
  · -- the position of the account is not changed by the update
    cases hi : s.users.findIdx? (fun u => u.id = user.id) with
    | none =>
      have := List.findIdx?_eq_none_iff.mp hi user hmem
      simp at this
    | some i =>
      rw [findIdx?_id_of_grows (grows_perform P _ s) hi]
      exact hi.symm
  · refine ⟨{ u with role }, ?_, by simp [lastRole_snoc, roleStored]⟩
    show (s.setRole user.id role).userById user.id = _
    rw [userById_setRole_self, hu]
    rfl

/-! ## The steps of a login -/

/-- How far a login is: it waits for its start, for its lookup, or for its role to be stored, or it
has ended. While it waits for its role, it has a reference to the account with the role stored
last. -/
inductive LoginAt (P : Platform) (cfg : Config) (req : Request) (value : LoginValue)
    (s : MemoryState) (calls : List StoreCall) :
    List (Event StoreCall Response) → Thread (memoryStore P) Response Unit → Prop
  | start : LoginAt P cfg req value s calls [] (.ready (serve P cfg req))
  | looked (trace : List (Event StoreCall Response)) (h : Option ℕ)
      (hsilent : Event.outputs trace = []) :
      LoginAt P cfg req value s calls trace
        (.waiting (.findUserByEmail value.email) h (Program.onAnswer (loginFound P cfg req value)))
  | storing (trace : List (Event StoreCall Response)) (id : String) (h : Option ℕ)
      (hsilent : Event.outputs trace = []) (hasked : requestedRole value ≠ "")
      (htracked : RoleTracked s calls id h) :
      LoginAt P cfg req value s calls trace
        (.waiting (.updateUserRole id (requestedRole value)) h
          (Program.onAnswer (loginAnswer P cfg req)))
  | ended (trace : List (Event StoreCall Response)) (result : Except Failure Unit)
      (hreports : ReportsRole P req (Event.outputs trace)) :
      LoginAt P cfg req value s calls trace (.finished result)

/-- What a login knows stays true while other requests call the store. -/
theorem LoginAt.replay {req : Request} {value : LoginValue} {s : MemoryState}
    {calls : List StoreCall} {trace : List (Event StoreCall Response)}
    {thread : Thread (memoryStore P) Response Unit}
    (hat : LoginAt P cfg req value s calls trace thread) (cs : List StoreCall) :
    LoginAt P cfg req value ((memoryStore P).replay s cs) (calls ++ cs) trace thread := by
  cases hat with
  | start => exact .start
  | looked _ h hsilent => exact .looked trace h hsilent
  | storing _ id h hsilent hasked htracked =>
    exact .storing trace id h hsilent hasked (htracked.replay cs)
  | ended _ result hreports => exact .ended trace result hreports

/-- A login that passes the schema looks its email up. -/
theorem login_eq {req : Request} {value : LoginValue} {body : Json}
    (hv : loginSchema P body.orEmpty = .ok value) :
    login P cfg req body = Program.call (.findUserByEmail value.email)
      (Program.onAnswer (loginFound P cfg req value)) := by
  unfold login
  rw [hv]
  exact Program.await_bind _ _

/-- A login serves the handler of its route. -/
theorem serve_of_login {req : Request} {value : LoginValue}
    (hv : req.login P = some value) :
    serve P cfg req = Program.call (.findUserByEmail value.email)
      (Program.onAnswer (loginFound P cfg req value)) := by
  obtain ⟨body, hp, he, hs⟩ := login_eq_some.mp hv
  unfold serve routers
  rw [hp, he]
  exact login_eq hs

/-- A response other than 200 reports nothing. -/
theorem reportsRole_of_status {req : Request} {response : Response}
    (hstatus : response.status ≠ 200) : ReportsRole P req [response] := by
  intro value _ _ response' hmem hok
  rw [List.mem_singleton.mp hmem] at hok
  exact absurd hok hstatus

/-- A session of a user with the role that was asked for. -/
theorem reportsRole_of_session {req : Request} {value : LoginValue} (hv : req.login P = some value)
    {user : User} (hrole : requestedRole value ≠ "" → user.role = requestedRole value)
    (token : String) :
    ReportsRole P req [⟨200, .session token (sanitizeUser user)⟩] := by
  intro value' hv' hasked response hmem _
  have heq : value = value' := Option.some.inj (hv.symm.trans hv')
  subst heq
  rw [List.mem_singleton.mp hmem]
  exact congrArg some (hrole hasked)

/-- The segment of a login that has looked its email up. -/
theorem loginAt_loginFound {req : Request} {value : LoginValue} {s : MemoryState}
    {calls : List StoreCall} {trace : List (Event StoreCall Response)}
    (hv : req.login P = some value) (hsilent : Event.outputs trace = []) {found : Option User}
    (hfound : ∀ user ∈ found, user ∈ s.users) :
    let g := (loginFound P cfg req value found).advance (memoryStore P) s
    LoginAt P cfg req value g.state (calls ++ Event.calls g.events) (trace ++ g.events)
      g.thread := by
  have hended : ∀ response, ReportsRole P req [response] →
      ReportsRole P req (Event.outputs (trace ++ [.sent response])) := by
    intro response h
    rw [Event.outputs_append, hsilent]
    exact h
  cases found with
  | none =>
    apply LoginAt.ended
    apply hended
    exact reportsRole_of_status (by decide)
  | some user =>
    unfold loginFound
    dsimp only
    split
    · apply LoginAt.ended
      apply hended
      exact reportsRole_of_status (by decide)
    · split
      · -- the role is stored, and the account is tracked from here on
        simp only [Program.await_bind, Program.advance_call]
        rename_i hother
        apply LoginAt.storing
        · rw [Event.outputs_append, hsilent]
          rfl
        · exact hother.1
        · exact roleTracked_updateUserRole (hfound user rfl) (requestedRole value)
      · rename_i hnot
        apply LoginAt.ended
        apply hended
        apply reportsRole_of_session hv
        intro hasked
        by_contra hne
        exact hnot ⟨hasked, Ne.symm hne⟩

variable (cfg) in
/-- The last segment of a login that has stored its role: it answers with the role stored last. -/
theorem resume_storing {req : Request} {value : LoginValue} {s : MemoryState}
    {calls : List StoreCall} {id : String} {h : Option ℕ} (htracked : RoleTracked s calls id h) :
    ∃ user, lastRole id calls = some user.role ∧
      (Thread.waiting (.updateUserRole id (requestedRole value)) h
        (Program.onAnswer (loginAnswer P cfg req)) :
          Thread (memoryStore P) Response Unit).resume s =
        ⟨[.sent ⟨200, .session (signToken P cfg user req.seeds.signedAt) (sanitizeUser user)⟩],
          .finished (.ok ()), s⟩ := by
  obtain ⟨user, huser, hrole⟩ := htracked.role
  have hview : (memoryStore P).view (.updateUserRole id (requestedRole value)) h s =
      .ok (some user) := by
    show Except.ok (h.bind (s.users[·]?)) = _
    rw [← htracked.reference, Keyed.findIdx?_bind_getElem?]
    exact congrArg Except.ok huser
  refine ⟨user, hrole, ?_⟩
  simp only [Thread.resume, hview]
  rfl

/-- **A segment of a login.** A login that has stored its role resumes while that role is the one
stored last. -/
theorem loginAt_resume {req : Request} {value : LoginValue} {s : MemoryState}
    {calls : List StoreCall} {trace : List (Event StoreCall Response)}
    {thread : Thread (memoryStore P) Response Unit} (hv : req.login P = some value)
    (hat : LoginAt P cfg req value s calls trace thread)
    (hkeeps : ∀ id h next, thread = .waiting (.updateUserRole id (requestedRole value)) h next →
      lastRole id calls = some (requestedRole value)) :
    let g := thread.resume s
    LoginAt P cfg req value g.state (calls ++ Event.calls g.events) (trace ++ g.events)
      g.thread := by
  cases hat with
  | start =>
    simp only [Thread.resume, serve_of_login hv]
    exact .looked _ _ rfl
  | looked _ h hsilent =>
    apply loginAt_loginFound hv hsilent
    intro user huser
    obtain ⟨i, -, hi⟩ := Option.bind_eq_some_iff.mp huser
    exact List.mem_of_getElem? hi
  | storing _ id h hsilent hasked htracked =>
    obtain ⟨user, hrole, hresume⟩ := resume_storing cfg htracked
    rw [hresume]
    apply LoginAt.ended
    rw [Event.outputs_append, hsilent]
    apply reportsRole_of_session hv
    intro _
    -- the record that is read has the role stored last, which is the one asked for
    exact Option.some.inj (hrole.symm.trans (hkeeps id h _ rfl))
  | ended _ result hreports =>
    apply LoginAt.ended
    rw [Event.outputs_append]
    exact (List.append_nil _).symm ▸ hreports

/-! ## Interleavings -/

/-- Every login of the pool is on its way. -/
def LoginsInv (P : Platform) (cfg : Config) (pool : ApiPool P) : Prop :=
  ∀ t ∈ pool.tasks, ∀ value, t.request.login P = some value →
    LoginAt P cfg t.request value pool.state pool.calls t.trace t.thread

variable {pool : ApiPool P}

theorem LoginAt.reports {req : Request} {value : LoginValue} {s : MemoryState}
    {calls : List StoreCall} {trace : List (Event StoreCall Response)}
    {thread : Thread (memoryStore P) Response Unit}
    (hat : LoginAt P cfg req value s calls trace thread) :
    ReportsRole P req (Event.outputs trace) := by
  have hsilent : Event.outputs trace = [] → ReportsRole P req (Event.outputs trace) := by
    intro hnone _ _ _ response hmem
    rw [hnone] at hmem
    cases hmem
  cases hat with
  | start => exact hsilent rfl
  | looked _ h hnone => exact hsilent hnone
  | storing _ id h hnone hasked htracked => exact hsilent hnone
  | ended _ result hreports => exact hreports

/-- The logins of a pool report the roles that they asked for. -/
theorem LoginsInv.reports (h : LoginsInv P cfg pool) :
    ∀ t ∈ pool.tasks, ReportsRole P t.request t.outputs := by
  intro t ht value hv
  exact (h t ht value hv).reports value hv

theorem LoginsInv.step (h : LoginsInv P cfg pool) (a : Action Request)
    (hkeeps : KeepsRole P pool a) : LoginsInv P cfg (pool.step (serve P cfg) a) := by
  rcases pool.step_cases (serve P cfg) a with ⟨r, rfl, heq⟩ | ⟨i, t, rfl, ht, heq⟩ | heq
  · rw [heq]
    intro t ht value hv
    rcases List.mem_append.mp ht with hold | hnew
    · exact h t hold value hv
    · rw [List.mem_singleton] at hnew
      subst hnew
      exact .start
  · rw [heq]
    intro t' ht' value hv
    have hcalls := pool.calls_resumed i t
    have hstate : (pool.resumed i t).state =
        (memoryStore P).replay pool.state
          (Event.calls (t.thread.resume pool.state).events) := t.thread.resume_state pool.state
    rcases List.mem_or_eq_of_mem_set ht' with hother | hthis
    · -- another login sees the calls of the segment
      rw [hcalls, hstate]
      exact (h t' hother value hv).replay _
    · subst hthis
      rw [hcalls]
      have htmem : t ∈ pool.tasks := List.mem_of_getElem? ht
      apply loginAt_resume hv (h t htmem value hv)
      intro id h next hthread
      exact hkeeps t ht value hv id h next hthread
  · rw [heq]
    exact h

/-- The last segment of a login that waits for its role to be stored. -/
theorem LoginAt.resume_waiting {req : Request} {value : LoginValue} {s : MemoryState}
    {calls : List StoreCall} {trace : List (Event StoreCall Response)}
    {thread : Thread (memoryStore P) Response Unit}
    (hat : LoginAt P cfg req value s calls trace thread) {id : String} {h : Option ℕ}
    {next : Except Failure (Option User) → Handler}
    (hthread : thread = .waiting (.updateUserRole id (requestedRole value)) h next) :
    requestedRole value ≠ "" ∧ ∃ user, lastRole id calls = some user.role ∧
      thread.resume s =
        ⟨[.sent ⟨200, .session (signToken P cfg user req.seeds.signedAt) (sanitizeUser user)⟩],
          .finished (.ok ()), s⟩ := by
  subst hthread
  cases hat with
  | storing _ _ _ hsilent hasked htracked => exact ⟨hasked, resume_storing cfg htracked⟩

/-- A login that resumes on a role stored meanwhile reports that role. -/
theorem keepsRole_of_reports (h : LoginsInv P cfg pool) (a : Action Request)
    (hafter : ∀ t ∈ (pool.step (serve P cfg) a).tasks, ReportsRole P t.request t.outputs) :
    KeepsRole P pool a := by
  cases a with
  | arrive r => exact trivial
  | resume i =>
    intro t ht value hv id handle next hthread
    have hlt : i < pool.tasks.length := (List.getElem?_eq_some_iff.mp ht).1
    obtain ⟨hasked, user, hrole, hresume⟩ :=
      (h t (List.mem_of_getElem? ht) value hv).resume_waiting hthread
    -- the answer reports the role stored last, and the one that was asked for
    have hstep : pool.step (serve P cfg) (.resume i) = pool.resumed i t := by
      simp [Pool.step, show pool.tasks[i]? = some t from ht]
    rw [hstep] at hafter
    have houtputs : (⟨200, .session (signToken P cfg user t.request.seeds.signedAt)
        (sanitizeUser user)⟩ : Response) ∈
          Event.outputs (t.trace ++ (t.thread.resume pool.state).events) := by
      rw [hresume, Event.outputs_append]
      exact List.mem_append_right _ (List.mem_singleton.mpr rfl)
    rw [hrole]
    exact hafter _ (List.mem_set hlt _) value hv hasked _ houtputs rfl

/-- **Logins report the roles that they asked for exactly as long as every login that has stored its
role resumes while it is the one stored last for the account.** The requests of the interleaving are
any requests, and they start in any state. -/
theorem logins_report_roles_iff (P : Platform) (cfg : Config) (s₀ : MemoryState)
    (as : List (Action Request)) :
    (∀ bs, bs <+: as → ∀ t ∈ (runApi P cfg s₀ bs).tasks, ReportsRole P t.request t.outputs) ↔
      StepsMeet (Pool.step (serve P cfg)) (KeepsRole P) (Pool.initial s₀) as :=
  forall_prefix_iff_stepsMeet_of_invariant (I := LoginsInv P cfg) (fun _ h => h.reports)
    (fun _ a h hkeeps => h.step a hkeeps) (fun _ a h hafter => keepsRole_of_reports h a hafter)
    (fun _ ht => absurd ht List.not_mem_nil)

/-- A login that asks for a role. -/
def plainRoleLogin (email password role : String) : Request :=
  plainRequest .post ["api", "auth", "login"] none
    (.obj [("email", .str email), ("password", .str password), ("role", .str role)]) ""

/-- **Two logins of one account that ask for different roles and overlap report the same role.** -/
theorem login_reports_other_role :
    ¬ ∀ t ∈ (runApi plainPlatform plainConfig (createMemoryStore plainPlatform [] "salt" 0)
      ([plainRoleLogin "demo@languageguru.app" "demo1234" "Data Analyst",
        plainRoleLogin "demo@languageguru.app" "demo1234" "Product Manager"].map Action.arrive ++
          [0, 0, 1, 1, 0, 1].map Action.resume)).tasks,
      ReportsRole plainPlatform t.request t.outputs := by
  decide +kernel

end LanguageGuru
