import LanguageGuru.Backend.Accounts
import LanguageGuru.Backend.Interleavings
import LanguageGuru.Backend.PlainPlatform

/-!
# Concurrent registrations

A registration looks its email up, and creates the user after the next await. The memory store has
no unique index, so two registrations of one email that both find nothing both create a user.
While no two registrations of an email are between these steps, emails stay unique, and of the
registrations of an email exactly one is answered 201 and all others 409.

## Main definitions

* `Request.registration`: the validated values of a registration
* `inWindow`: a registration of an email that found nothing and has not created the user
* `startsAlone`: no registration finds nothing while another one of its email is in the window
* `RegisterStage`: what a registration does, step by step
* `RegistrationInv`: the invariant of the runs whose steps all start alone

## Main results

* `concurrent_registrations_collide`: two registrations of one email are both answered 201
* `registrations_atomic`: registrations that start alone are atomic
-/

namespace LanguageGuru

open Process

abbrev ApiTask (P : Platform) := Process.Task Request (memoryStore P) Response Unit

/-- The validated values of a registration that passes the schema. -/
def Request.registration (P : Platform) (req : Request) : Option RegisterValue :=
  match req.payload, req.endpoint with
  | .parsed body, some .register => (registerSchema P body.orEmpty).toOption
  | _, _ => none

theorem registration_eq_some {P : Platform} {req : Request} {value : RegisterValue} :
    req.registration P = some value ↔ ∃ body, req.payload = .parsed body ∧
      req.endpoint = some .register ∧ registerSchema P body.orEmpty = .ok value := by
  unfold Request.registration
  constructor
  · intro h
    split at h
    · rename_i body hp he
      exact ⟨body, hp, he, toOption_eq_some.mp h⟩
    · cases h
  · rintro ⟨body, hp, he, hv⟩
    simp only [hp, he]
    exact toOption_eq_some.mpr hv

/-- The request is a registration of the email `e` in some letter case. -/
def Request.registers (P : Platform) (req : Request) (e : String) : Bool :=
  (req.registration P).any fun value => P.toLowerCase value.email = e

/-- The lookup found nothing, and its handler has not resumed. -/
def lookedUpNone {P : Platform} : Thread (memoryStore P) Response Unit → Bool
  | .waiting (.findUserByEmail _) h _ => h.isNone
  | _ => false

/-- A registration of the email `e` that found nothing and has not created the user. -/
def inWindow (P : Platform) (e : String) (t : ApiTask P) : Bool :=
  t.request.registers P e && lookedUpNone t.thread

def StoreCall.isCreate : StoreCall → Bool
  | .createUser _ _ _ => true
  | _ => false

/-- A registration of the email `e` that has created its user. -/
def hasCreated (P : Platform) (e : String) (t : ApiTask P) : Bool :=
  t.request.registers P e && (Event.calls t.trace).any StoreCall.isCreate

/-- No registration looks its email up, and finds nothing, while another registration of that
email is in the window. -/
def startsAlone (P : Platform) (pool : ApiPool P) : Action Request → Bool
  | .arrive _ => true
  | .resume i =>
    match pool.tasks[i]? with
    | none => true
    | some t =>
      match t.request.registration P, t.thread with
      -- the first segment of a registration runs up to its lookup
      | some value, .ready _ =>
        (pool.state.userByEmail P value.email).isSome ||
          !pool.tasks.any (inWindow P (P.toLowerCase value.email))
      | _, _ => true

/-! ## The steps of a registration -/

/-- How far a registration is: not started, with the result of its lookup, with the position of
its user, answered 409, or answered 201 with its user. -/
inductive RegisterStage where
  | start
  | looked (h : Option ℕ)
  | created (i : ℕ)
  | refused
  | registered (u : User)

/-- The registration found nothing and has not created its user. -/
def RegisterStage.isWindow : RegisterStage → Bool
  | .looked none => true
  | _ => false

/-- The registration has created its user. -/
def RegisterStage.isCreated : RegisterStage → Bool
  | .created _ => true
  | .registered _ => true
  | _ => false

section Stages

variable (P : Platform) (cfg : Config) (req : Request) (value : RegisterValue)

/-- The lookup of a registration. -/
abbrev lookupCall : StoreCall := .findUserByEmail value.email

/-- The creation of a registration. -/
abbrev createCall : StoreCall :=
  .createUser (newUser P value req.seeds.salt) req.seeds.newId req.seeds.storedAt

/-- The task of a registration at a stage. -/
def RegisterStage.task : RegisterStage → ApiTask P
  | .start => ⟨req, [], .ready (serve P cfg req)⟩
  | .looked h =>
    ⟨req, [.called (lookupCall value)],
      .waiting (lookupCall value) h (Program.onAnswer (registerFound P cfg req value))⟩
  | .created i =>
    ⟨req, [.called (lookupCall value), .called (createCall P req value)],
      .waiting (createCall P req value) i (Program.onAnswer (registerCreated P cfg req))⟩
  | .refused =>
    ⟨req, [.called (lookupCall value), .sent ⟨409, .error "Email already registered"⟩],
      .finished (.ok ())⟩
  | .registered u =>
    ⟨req, [.called (lookupCall value), .called (createCall P req value),
      .sent ⟨201, .session (signToken P cfg u req.seeds.signedAt) (sanitizeUser u)⟩],
      .finished (.ok ())⟩

/-- The lower-cased emails of the users. -/
def MemoryState.emails (P : Platform) (s : MemoryState) : List String :=
  s.users.map fun u => P.toLowerCase u.email

/-- What a stage knows about the state: the references it holds are those of records, and who
found a record, or was refused, has its email among the users. -/
def RegisterStage.Holds (s : MemoryState) : RegisterStage → Prop
  | .start => True
  | .looked none => True
  | .looked (some i) => i < s.users.length ∧ P.toLowerCase value.email ∈ s.emails P
  | .created i => i < s.users.length ∧ P.toLowerCase value.email ∈ s.emails P
  | .refused => P.toLowerCase value.email ∈ s.emails P
  | .registered _ => P.toLowerCase value.email ∈ s.emails P

variable {P cfg req value}

@[simp] theorem RegisterStage.task_request (st : RegisterStage) :
    (st.task P cfg req value).request = req := by
  cases st <;> rfl

/-- A stage knows it in every later state. -/
theorem RegisterStage.Holds.mono {st : RegisterStage} {s s' : MemoryState}
    (h : st.Holds P value s) (hs : s.emails P <+: s'.emails P) : st.Holds P value s' := by
  have hlen : s.users.length ≤ s'.users.length := by
    simpa [MemoryState.emails] using hs.length_le
  match st, h with
  | .start, _ => exact trivial
  | .looked none, _ => exact trivial
  | .looked (some i), ⟨hi, he⟩ => exact ⟨hi.trans_le hlen, hs.subset he⟩
  | .created i, ⟨hi, he⟩ => exact ⟨hi.trans_le hlen, hs.subset he⟩
  | .refused, he => exact hs.subset he
  | .registered u, he => exact hs.subset he

theorem registers_eq_true {e : String} :
    req.registers P e = true ↔
      ∃ value, req.registration P = some value ∧ P.toLowerCase value.email = e := by
  unfold Request.registers
  cases req.registration P <;> simp

theorem registers_of_registration (hv : req.registration P = some value) (e : String) :
    req.registers P e = decide (P.toLowerCase value.email = e) := by
  simp [Request.registers, hv]

/-- A registration that passes the schema looks its email up. -/
theorem register_eq {body : Json} (hv : registerSchema P body.orEmpty = .ok value) :
    register P cfg req body = Program.call (lookupCall value)
      (Program.onAnswer (registerFound P cfg req value)) := by
  unfold register
  rw [hv]
  exact Program.await_bind _ _

/-- A registration serves the handler of its route. -/
theorem serve_of_registration (hv : req.registration P = some value) :
    serve P cfg req = Program.call (lookupCall value)
      (Program.onAnswer (registerFound P cfg req value)) := by
  obtain ⟨body, hp, he, hs⟩ := registration_eq_some.mp hv
  unfold serve routers
  rw [hp, he]
  exact register_eq hs

/-- The user that the registration creates. -/
abbrev registeredUser (P : Platform) (req : Request) (value : RegisterValue) : User :=
  (newUser P value req.seeds.salt).record req.seeds.newId req.seeds.storedAt

/-- The stage after the next segment, which runs in the state `s`. -/
def RegisterStage.next (P : Platform) (value : RegisterValue) (s : MemoryState) :
    RegisterStage → RegisterStage
  | .start => .looked (s.users.findIdx? fun u => P.toLowerCase u.email = P.toLowerCase value.email)
  | .looked none => .created s.users.length
  | .looked (some _) => .refused
  | .created i => (s.users[i]?).elim (.created i) .registered
  | .refused => .refused
  | .registered u => .registered u

/-- The state that the next segment leaves. -/
def RegisterStage.leaves (P : Platform) (req : Request) (value : RegisterValue) (s : MemoryState) :
    RegisterStage → MemoryState
  | .looked none => s.addUser (registeredUser P req value)
  | _ => s

/-- **The steps of a registration.** A segment of its task takes it to the next stage. -/
theorem resume_stage (cfg : Config) (hv : req.registration P = some value) {st : RegisterStage}
    {s : MemoryState} (h : st.Holds P value s) :
    let t := st.task P cfg req value
    let g := t.thread.resume s
    ({ t with trace := t.trace ++ g.events, thread := g.thread } : ApiTask P) =
      (st.next P value s).task P cfg req value ∧ g.state = st.leaves P req value s := by
  match st, h with
  | .start, _ =>
    simp only [RegisterStage.task, Thread.resume, serve_of_registration hv]
    exact ⟨rfl, rfl⟩
  | .looked none, _ =>
    -- nobody was found when the lookup was made, whoever has the email by now
    have hview : (memoryStore P).view (lookupCall value) none s = .ok none := rfl
    have hfound : registerFound P cfg req value none = Program.call (createCall P req value)
        (Program.onAnswer (registerCreated P cfg req)) := Program.await_bind _ _
    simp only [RegisterStage.task, Thread.resume, hview, Program.onAnswer_ok, hfound]
    exact ⟨rfl, rfl⟩
  | .looked (some i), ⟨hi, _⟩ =>
    -- the record found is still at its position
    have hview : (memoryStore P).view (lookupCall value) (some i) s = .ok (some s.users[i]) :=
      congrArg Except.ok (List.getElem?_eq_getElem hi)
    simp only [RegisterStage.task, Thread.resume, hview]
    exact ⟨rfl, rfl⟩
  | .created i, ⟨hi, _⟩ =>
    have hu : s.users[i]? = some s.users[i] := List.getElem?_eq_getElem hi
    have hview : (memoryStore P).view (createCall P req value) i s = .ok s.users[i] := by
      simp [memoryStore, MemoryState.view, deref, hu]
    simp only [RegisterStage.task, Thread.resume, hview, RegisterStage.next, hu]
    exact ⟨rfl, rfl⟩
  | .refused, _ => exact ⟨rfl, rfl⟩
  | .registered u, _ => exact ⟨rfl, rfl⟩

theorem emails_addUser (s : MemoryState) (u : User) :
    (s.addUser u).emails P = s.emails P ++ [P.toLowerCase u.email] := by
  simp [MemoryState.emails, MemoryState.addUser]

theorem emails_leaves (hlower : ∀ e, P.toLowerCase (P.toLowerCase e) = P.toLowerCase e)
    (st : RegisterStage) (s : MemoryState) :
    (st.leaves P req value s).emails P =
      s.emails P ++ if st.isWindow then [P.toLowerCase value.email] else [] := by
  match st with
  | .looked none =>
    have hemail : P.toLowerCase (registeredUser P req value).email =
        P.toLowerCase value.email := hlower value.email
    exact (emails_addUser s _).trans (by rw [hemail]; rfl)
  | .start => exact (List.append_nil _).symm
  | .looked (some i) => exact (List.append_nil _).symm
  | .created i => exact (List.append_nil _).symm
  | .refused => exact (List.append_nil _).symm
  | .registered u => exact (List.append_nil _).symm

/-- The lookup finds nothing exactly when no user has the email. -/
theorem findIdx?_eq_none_iff_emails {email : String} (s : MemoryState) :
    (s.users.findIdx? fun u => P.toLowerCase u.email = P.toLowerCase email) = none ↔
      P.toLowerCase email ∉ s.emails P := by
  simp [MemoryState.emails, List.findIdx?_eq_none_iff]

/-- The next stage knows what it should in the state that the segment leaves. -/
theorem RegisterStage.Holds.next (hlower : ∀ e, P.toLowerCase (P.toLowerCase e) = P.toLowerCase e)
    {st : RegisterStage} {s : MemoryState} (h : st.Holds P value s) :
    (st.next P value s).Holds P value (st.leaves P req value s) := by
  match st, h with
  | .start, _ =>
    simp only [RegisterStage.next, RegisterStage.leaves]
    cases hi : s.users.findIdx? fun u => P.toLowerCase u.email = P.toLowerCase value.email with
    | none => exact trivial
    | some i =>
      -- the email of the record at the position is among the emails
      refine ⟨(List.findIdx?_eq_some_iff_findIdx_eq.mp hi).1, ?_⟩
      by_contra hnot
      rw [(findIdx?_eq_none_iff_emails s).mpr hnot] at hi
      cases hi
  | .looked none, _ =>
    refine ⟨by simp [RegisterStage.leaves, MemoryState.addUser], ?_⟩
    rw [emails_leaves hlower]
    exact List.mem_append_right _ (List.mem_singleton_self _)
  | .looked (some i), ⟨_, he⟩ => exact he
  | .created i, ⟨hi, he⟩ =>
    have hu : s.users[i]? = some s.users[i] := List.getElem?_eq_getElem hi
    simp only [RegisterStage.next, hu]
    exact he
  | .refused, he => exact he
  | .registered u, he => exact he

/-- A segment creates the user exactly when the registration was in the window. -/
theorem isCreated_next (st : RegisterStage) (s : MemoryState) :
    (st.next P value s).isCreated = (st.isCreated || st.isWindow) := by
  match st with
  | .start => rfl
  | .looked none => rfl
  | .looked (some i) => rfl
  | .created i =>
    rw [RegisterStage.next]
    cases s.users[i]? <;> rfl
  | .refused => rfl
  | .registered u => rfl

theorem isWindow_of_isCreated {st : RegisterStage} (h : st.isCreated = true) :
    st.isWindow = false := by
  match st, h with
  | .created i, _ => rfl
  | .registered u, _ => rfl

/-- A registration enters the window by a lookup that finds nothing. -/
theorem start_of_isWindow_next {st : RegisterStage} {s : MemoryState}
    (h : (st.next P value s).isWindow = true) :
    st = .start ∧ P.toLowerCase value.email ∉ s.emails P := by
  match st, h with
  | .start, h =>
    refine ⟨rfl, (findIdx?_eq_none_iff_emails s).mp ?_⟩
    simp only [RegisterStage.next] at h
    cases hi : s.users.findIdx? fun u => P.toLowerCase u.email = P.toLowerCase value.email with
    | none => rfl
    | some i =>
      rw [hi] at h
      cases h
  | .created i, h =>
    rw [RegisterStage.next] at h
    cases hu : s.users[i]? <;> rw [hu] at h <;> cases h

theorem inWindow_task (hv : req.registration P = some value) (st : RegisterStage) (e : String) :
    inWindow P e (st.task P cfg req value) =
      (decide (P.toLowerCase value.email = e) && st.isWindow) := by
  rw [inWindow, RegisterStage.task_request, registers_of_registration hv]
  congr 1
  match st with
  | .start => rfl
  | .looked none => rfl
  | .looked (some i) => rfl
  | .created i => rfl
  | .refused => rfl
  | .registered u => rfl

theorem hasCreated_task (hv : req.registration P = some value) (st : RegisterStage) (e : String) :
    hasCreated P e (st.task P cfg req value) =
      (decide (P.toLowerCase value.email = e) && st.isCreated) := by
  rw [hasCreated, RegisterStage.task_request, registers_of_registration hv]
  congr 1
  match st with
  | .start => rfl
  | .looked none => rfl
  | .looked (some i) => rfl
  | .created i => rfl
  | .refused => rfl
  | .registered u => rfl

end Stages

/-! ## The other requests -/

section Others

variable {P : Platform} {cfg : Config} {req : Request} {s : MemoryState}

/-- A request that is no valid registration creates no user. -/
theorem serve_within_other (hv : req.registration P = none) :
    (serve P cfg req).Within (fun c => c.isCreate = false) fun _ => True := by
  by_cases he : req.endpoint = some .register
  · unfold serve
    cases hp : req.payload with
    | refused status => exact Program.within_send trivial
    | parsed body =>
      simp only [routers, he]
      unfold register
      cases hs : registerSchema P body.orEmpty with
      | error message => exact Program.within_send trivial
      | ok value =>
        rw [registration_eq_some.mpr ⟨body, hp, he, hs⟩] at hv
        cases hv
  · -- of the other routes none may call `createUser`
    refine (serve_within P cfg req).mono (fun c hc => ?_) fun _ h => h
    obtain ⟨e, he', hc⟩ := hc
    cases c with
    | createUser payload newId now => cases e <;> first | exact absurd he' he | cases hc
    | _ => rfl

theorem emails_perform_other {c : StoreCall} (hc : c.isCreate = false) :
    ((memoryStore P).perform c s).2.emails P = s.emails P := by
  cases c with
  | createUser payload newId now => cases hc
  | updateUserRole id role =>
    refine Keyed.map_update ?_ s.users
    exact fun _ _ => rfl
  | _ => rfl

theorem emails_replay_other {cs : List StoreCall} (hcs : ∀ c ∈ cs, c.isCreate = false) :
    ((memoryStore P).replay s cs).emails P = s.emails P := by
  induction cs using List.reverseRecOn with
  | nil => rfl
  | append_singleton cs c ih =>
    rw [Service.replay_snoc, emails_perform_other (hcs c (by simp))]
    exact ih fun c' hc' => hcs c' (by simp [hc'])

theorem inWindow_other {t : ApiTask P} (hv : t.request.registration P = none) (e : String) :
    inWindow P e t = false := by
  simp [inWindow, Request.registers, hv]

theorem hasCreated_other {t : ApiTask P} (hv : t.request.registration P = none) (e : String) :
    hasCreated P e t = false := by
  simp [hasCreated, Request.registers, hv]

end Others

/-! ## The invariant -/

/-- The invariant of the runs from `s₀` whose steps all start alone: an email is held by one user
or awaited by one registration in the window, and the registrations that created a user are the
users that were added. -/
structure RegistrationInv (P : Platform) (cfg : Config) (s₀ : MemoryState) (pool : ApiPool P) :
    Prop where
  others : ∀ t ∈ pool.tasks, t.request.registration P = none →
    t.thread.Within (fun c => c.isCreate = false) fun _ => True
  stages : ∀ t ∈ pool.tasks, ∀ value, t.request.registration P = some value →
    ∃ st : RegisterStage, t = st.task P cfg t.request value ∧ st.Holds P value pool.state
  alone : ∀ e, (pool.state.emails P).count e + pool.tasks.countP (inWindow P e) ≤ 1
  created : ∀ e, (pool.state.emails P).count e =
    (s₀.emails P).count e + pool.tasks.countP (hasCreated P e)

section Step

variable {P : Platform} {cfg : Config} {s₀ : MemoryState} {pool : ApiPool P}

theorem RegistrationInv.arrive (h : RegistrationInv P cfg s₀ pool) (req : Request) :
    RegistrationInv P cfg s₀
      { pool with tasks := pool.tasks ++ [⟨req, [], .ready (serve P cfg req)⟩] } where
  others t ht hv := by
    rcases List.mem_append.mp ht with ht | ht
    · exact h.others t ht hv
    · obtain rfl := List.mem_singleton.mp ht
      exact serve_within_other hv
  stages t ht value hv := by
    rcases List.mem_append.mp ht with ht | ht
    · exact h.stages t ht value hv
    · obtain rfl := List.mem_singleton.mp ht
      exact ⟨.start, rfl, trivial⟩
  alone e := by
    have hnew : inWindow P e ⟨req, [], .ready (serve P cfg req)⟩ = false := Bool.and_false _
    simpa [List.countP_append, hnew] using h.alone e
  created e := by
    have hnew : hasCreated P e ⟨req, [], .ready (serve P cfg req)⟩ = false := Bool.and_false _
    simpa [List.countP_append, hnew] using h.created e

/-- The tasks after a segment that leaves the stages of the other tasks alone. -/
theorem RegistrationInv.stages_set (h : RegistrationInv P cfg s₀ pool) {i : ℕ} {t' : ApiTask P}
    {s' : MemoryState} (hs : pool.state.emails P <+: s'.emails P)
    (ht' : ∀ value, t'.request.registration P = some value →
      ∃ st : RegisterStage, t' = st.task P cfg t'.request value ∧ st.Holds P value s') :
    ∀ t ∈ pool.tasks.set i t', ∀ value, t.request.registration P = some value →
      ∃ st : RegisterStage, t = st.task P cfg t.request value ∧ st.Holds P value s' := by
  intro t ht value hv
  rcases List.mem_or_eq_of_mem_set ht with ht | rfl
  · obtain ⟨st, hst, hholds⟩ := h.stages t ht value hv
    exact ⟨st, hst, hholds.mono hs⟩
  · exact ht' value hv

/-- A segment of a request that is no valid registration. -/
theorem RegistrationInv.resume_other (h : RegistrationInv P cfg s₀ pool) {i : ℕ} {t : ApiTask P}
    (ht : pool.tasks[i]? = some t) (hv : t.request.registration P = none) :
    RegistrationInv P cfg s₀ (pool.resumed i t) := by
  have hmem : t ∈ pool.tasks := List.mem_of_getElem? ht
  obtain ⟨hcalls, -, hthread⟩ := (h.others t hmem hv).resume pool.state
  -- such a request makes no call that creates a user, so that the emails stay as they are
  have hemails : (pool.resumed i t).state.emails P = pool.state.emails P := by
    have hstate := t.thread.resume_state pool.state
    simp only [Pool.resumed, hstate]
    exact emails_replay_other hcalls
  -- and neither before nor after the segment does the task count as a registration
  have htasks : ∀ p : ApiTask P → Bool, (∀ t' : ApiTask P, t'.request = t.request → p t' = false) →
      (pool.resumed i t).tasks.countP p = pool.tasks.countP p := by
    intro p hp
    let t' : ApiTask P :=
      { t with trace := t.trace ++ (t.thread.resume pool.state).events,
               thread := (t.thread.resume pool.state).thread }
    have hcount := Pool.countP_set_add (p := p) ht t'
    rw [hp t rfl, hp t' rfl] at hcount
    exact hcount
  refine ⟨fun t' ht' hv' => ?_, ?_, fun e => ?_, fun e => ?_⟩
  · rcases List.mem_or_eq_of_mem_set ht' with ht' | rfl
    · exact h.others t' ht' hv'
    · exact hthread
  · refine h.stages_set (hemails ▸ List.prefix_rfl) fun value hv' => ?_
    rw [hv] at hv'
    cases hv'
  · rw [hemails, htasks _ fun t' ht' => inWindow_other (ht' ▸ hv) e]
    exact h.alone e
  · rw [hemails, htasks _ fun t' ht' => hasCreated_other (ht' ▸ hv) e]
    exact h.created e

theorem count_ite_singleton (b : Bool) (x e : String) :
    (if b then [x] else []).count e = if b && decide (x = e) then 1 else 0 := by
  cases b <;> simp [List.count_singleton]

/-- A lookup that finds nothing, with no registration of the email in the window. -/
theorem nobody_in_window {i : ℕ}
    {req : Request} {value : RegisterValue} (hv : req.registration P = some value)
    (ht : pool.tasks[i]? = some (RegisterStage.start.task P cfg req value))
    (halone : startsAlone P pool (.resume i) = true)
    (hnone : P.toLowerCase value.email ∉ pool.state.emails P) :
    (pool.state.emails P).count (P.toLowerCase value.email) +
      pool.tasks.countP (inWindow P (P.toLowerCase value.email)) = 0 := by
  have hfind : pool.state.userByEmail P value.email = none := by
    rw [userByEmail_eq_lookup, Keyed.lookup_eq_none]
    exact fun u hu he => hnone (List.mem_map.mpr ⟨u, hu, he⟩)
  simp only [startsAlone, ht, RegisterStage.task_request, hv] at halone
  simp only [RegisterStage.task, hfind, Option.isSome_none, Bool.false_or, Bool.not_eq_true',
    List.any_eq_false] at halone
  have hwindow : pool.tasks.countP (inWindow P (P.toLowerCase value.email)) = 0 :=
    List.countP_eq_zero.mpr halone
  rw [hwindow, List.count_eq_zero_of_not_mem hnone]

/-- A segment of a registration that starts alone. -/
theorem RegistrationInv.resume_stage
    (hlower : ∀ e, P.toLowerCase (P.toLowerCase e) = P.toLowerCase e)
    (h : RegistrationInv P cfg s₀ pool) {i : ℕ} {t : ApiTask P} {value : RegisterValue}
    (ht : pool.tasks[i]? = some t) (hv : t.request.registration P = some value)
    (halone : startsAlone P pool (.resume i) = true) :
    RegistrationInv P cfg s₀ (pool.resumed i t) := by
  obtain ⟨st, hst, hholds⟩ := h.stages t (List.mem_of_getElem? ht) value hv
  -- the task is the one of its stage, and goes on to the next one
  generalize t.request = req at hst hv
  subst hst
  obtain ⟨htask, hstate⟩ := LanguageGuru.resume_stage cfg hv hholds
  have hemails : (pool.resumed i (st.task P cfg req value)).state.emails P =
      pool.state.emails P ++ if st.isWindow then [P.toLowerCase value.email] else [] := by
    simp only [Pool.resumed, hstate]
    exact emails_leaves hlower st pool.state
  have htasks : (pool.resumed i (st.task P cfg req value)).tasks =
      pool.tasks.set i ((st.next P value pool.state).task P cfg req value) := by
    simp only [Pool.resumed, htask]
  refine ⟨fun t' ht' hv' => ?_, ?_, fun e => ?_, fun e => ?_⟩
  · rw [htasks] at ht'
    rcases List.mem_or_eq_of_mem_set ht' with ht' | rfl
    · exact h.others t' ht' hv'
    · rw [RegisterStage.task_request, hv] at hv'
      cases hv'
  · rw [htasks]
    refine h.stages_set (hemails ▸ List.prefix_append _ _) fun value' hv' => ?_
    rw [RegisterStage.task_request, hv] at hv'
    obtain rfl := Option.some.inj hv'
    refine ⟨st.next P value pool.state, by rw [RegisterStage.task_request], ?_⟩
    simp only [Pool.resumed, hstate]
    exact hholds.next hlower
  · have hcount := Pool.countP_set_add (p := inWindow P e) ht
      ((st.next P value pool.state).task P cfg req value)
    have hold := h.alone e
    rw [inWindow_task hv, inWindow_task hv] at hcount
    rw [hemails, htasks, List.count_append, count_ite_singleton]
    by_cases he : P.toLowerCase value.email = e
    · subst he
      cases hwin : (st.next P value pool.state).isWindow with
      | true =>
        -- the lookup opens a window: it starts alone, so that no other one is open
        obtain ⟨rfl, hnone⟩ := start_of_isWindow_next hwin
        have hzero := nobody_in_window hv ht halone hnone
        have hstart : RegisterStage.start.isWindow = false := rfl
        simp [hwin, hstart] at hcount ⊢
        omega
      | false =>
        -- a window that closes adds the email it stood for
        cases hw : st.isWindow <;> simp [hwin, hw] at hcount ⊢ <;> omega
    · simp [he] at hcount ⊢
      omega
  · have hcount := Pool.countP_set_add (p := hasCreated P e) ht
      ((st.next P value pool.state).task P cfg req value)
    have hold := h.created e
    rw [hasCreated_task hv, hasCreated_task hv, isCreated_next] at hcount
    rw [hemails, htasks, List.count_append, count_ite_singleton]
    by_cases he : P.toLowerCase value.email = e
    · cases hc : st.isCreated with
      | true =>
        -- the user was created in an earlier segment
        have hw := isWindow_of_isCreated hc
        simp [he, hc, hw] at hcount ⊢
        omega
      | false => cases hw : st.isWindow <;> simp [he, hc, hw] at hcount ⊢ <;> omega
    · simp [he] at hcount ⊢
      omega

/-- **A step that starts alone keeps the invariant.** -/
theorem RegistrationInv.step (hlower : ∀ e, P.toLowerCase (P.toLowerCase e) = P.toLowerCase e)
    (h : RegistrationInv P cfg s₀ pool) {a : Action Request}
    (halone : startsAlone P pool a = true) :
    RegistrationInv P cfg s₀ (pool.step (serve P cfg) a) := by
  rcases pool.step_cases (serve P cfg) a with ⟨req, rfl, hs⟩ | ⟨i, t, rfl, ht, hs⟩ | hs
  · rw [hs]
    exact h.arrive req
  · rw [hs]
    cases hv : t.request.registration P with
    | none => exact h.resume_other ht hv
    | some value => exact h.resume_stage hlower ht hv halone
  · rw [hs]
    exact h

theorem RegistrationInv.initial (hs : UniqueEmails P s₀) :
    RegistrationInv P cfg s₀ (Pool.initial s₀) where
  others _ ht := nomatch ht
  stages _ ht := nomatch ht
  alone := List.nodup_iff_count_le_one.mp hs
  created _ := rfl

/-- In every run whose steps all start alone the invariant holds. -/
theorem registrationInv_runApi (cfg : Config)
    (hlower : ∀ e, P.toLowerCase (P.toLowerCase e) = P.toLowerCase e) (hs : UniqueEmails P s₀)
    {as : List (Action Request)}
    (halone : StepsMeet (Pool.step (serve P cfg)) (fun pool a => startsAlone P pool a = true)
      (Pool.initial s₀) as) : RegistrationInv P cfg s₀ (runApi P cfg s₀ as) :=
  run_invariant_of_stepsMeet (fun _ _ h ha => h.step hlower ha) (RegistrationInv.initial hs) halone

end Step

/-! ## The answers -/

section Answers

variable {P : Platform} {cfg : Config} {s₀ : MemoryState} {pool : ApiPool P}

/-- The statuses that a task has answered with. -/
def statuses {P : Platform} (t : ApiTask P) : List ℕ := t.outputs.map Response.status

/-- What a registration at a stage has answered. -/
theorem statuses_stage (P : Platform) (cfg : Config) (st : RegisterStage) (req : Request)
    (value : RegisterValue) :
    (statuses (st.task P cfg req value) = [] ∨ statuses (st.task P cfg req value) = [201] ∨
      statuses (st.task P cfg req value) = [409]) ∧
    (statuses (st.task P cfg req value) = [201] → st.isCreated = true) ∧
    (statuses (st.task P cfg req value) = [409] → st.isCreated = false) := by
  cases st <;> simp [statuses, Process.Task.outputs, RegisterStage.task, RegisterStage.isCreated]

/-- A registration that is answered found the email, or created it. -/
theorem mem_emails_of_answered {st : RegisterStage} {req : Request} {value : RegisterValue}
    {s : MemoryState} (h : st.Holds P value s)
    (hans : statuses (st.task P cfg req value) ≠ []) :
    P.toLowerCase value.email ∈ s.emails P := by
  match st, h with
  | .start, _ => exact absurd rfl hans
  | .looked none, _ => exact absurd rfl hans
  | .looked (some i), ⟨_, he⟩ => exact he
  | .created i, ⟨_, he⟩ => exact he
  | .refused, he => exact he
  | .registered u, he => exact he

/-- The registrations of an email that nobody had. -/
theorem RegistrationInv.answers (h : RegistrationInv P cfg s₀ pool) {e : String}
    (he : e ∉ s₀.emails P) :
    let mine := pool.tasks.filter fun t => t.request.registers P e
    (∀ t ∈ mine, statuses t = [] ∨ statuses t = [201] ∨ statuses t = [409]) ∧
      mine.countP (fun t => statuses t = [201]) ≤ 1 ∧
      (mine ≠ [] → (∀ t ∈ mine, statuses t ≠ []) →
        mine.countP (fun t => statuses t = [201]) = 1) := by
  intro mine
  -- nobody had the email at first, so that each of its users was created in the run
  have hcount : pool.tasks.countP (hasCreated P e) ≤ 1 ∧
      (pool.state.emails P).count e = pool.tasks.countP (hasCreated P e) := by
    have hcreated := h.created e
    have halone := h.alone e
    rw [List.count_eq_zero_of_not_mem he] at hcreated
    omega
  -- a registration of the email is at a stage, which knows its answers
  have hstage : ∀ t ∈ mine, ∃ value, ∃ st : RegisterStage,
      t = st.task P cfg t.request value ∧ st.Holds P value pool.state ∧
      P.toLowerCase value.email = e ∧ hasCreated P e t = st.isCreated := by
    intro t ht
    obtain ⟨hmem, hreg⟩ := List.mem_filter.mp ht
    obtain ⟨value, hv, hve⟩ := registers_eq_true.mp hreg
    obtain ⟨st, hst, hholds⟩ := h.stages t hmem value hv
    refine ⟨value, st, hst, hholds, hve, ?_⟩
    rw [hst, hasCreated_task hv, hve, decide_eq_true rfl, Bool.true_and]
  have hmine : mine.countP (hasCreated P e) = pool.tasks.countP (hasCreated P e) := by
    rw [List.countP_filter]
    refine List.countP_congr fun t _ => ?_
    cases hr : t.request.registers P e <;> simp [hasCreated, hr]
  have hcreated : ∀ t ∈ mine, statuses t = [201] → hasCreated P e t = true := by
    intro t ht h201
    obtain ⟨value, st, hst, -, -, hc⟩ := hstage t ht
    rw [hc]
    rw [hst] at h201
    exact (statuses_stage P cfg st _ value).2.1 h201
  refine ⟨fun t ht => ?_, ?_, fun hne hall => ?_⟩
  · obtain ⟨value, st, hst, -⟩ := hstage t ht
    rw [hst]
    exact (statuses_stage P cfg st _ value).1
  · refine le_trans (List.countP_mono_left fun t ht h201 => ?_) (hmine.le.trans hcount.1)
    exact hcreated t ht (of_decide_eq_true h201)
  · -- every registration is answered, so one of them found or created the user
    have hpos : 0 < (pool.state.emails P).count e := by
      obtain ⟨t, ht⟩ := List.exists_mem_of_ne_nil mine hne
      obtain ⟨value, st, hst, hholds, rfl, -⟩ := hstage t ht
      have hans := hall t ht
      rw [hst] at hans
      exact List.count_pos_iff.mpr (mem_emails_of_answered hholds hans)
    -- and the one that created the user is the one that is answered 201
    have hexact : mine.countP (fun t => statuses t = [201]) = mine.countP (hasCreated P e) := by
      refine List.countP_congr fun t ht => ?_
      rw [decide_eq_true_iff]
      refine ⟨hcreated t ht, fun hc => ?_⟩
      obtain ⟨value, st, hst, -, -, hc'⟩ := hstage t ht
      have hans := hall t ht
      rw [hc'] at hc
      rw [hst] at hans ⊢
      obtain ⟨h₁, -, h₃⟩ := statuses_stage P cfg st t.request value
      rcases h₁ with h₁ | h₁ | h₁
      · exact absurd h₁ hans
      · exact h₁
      · rw [h₃ h₁] at hc
        cases hc
    rw [hexact, hmine]
    omega

end Answers

/-- **Registrations that start alone are atomic.** In every run in which no registration looks its
email up and finds nothing while another one of that email is between its lookup and the creation
of its user: emails are unique up to letter case in every state reached, and of the valid
registrations of an email that nobody had before each is answered 201, 409 or not yet, at most one
is answered 201, and exactly one is when all of them are answered. -/
theorem registrations_atomic {P : Platform} {cfg : Config}
    (hlower : ∀ e, P.toLowerCase (P.toLowerCase e) = P.toLowerCase e) {s₀ : MemoryState}
    (hs : UniqueEmails P s₀) {as : List (Action Request)}
    (halone : StepsMeet (Pool.step (serve P cfg)) (fun pool a => startsAlone P pool a = true)
      (Pool.initial s₀) as) :
    let pool := runApi P cfg s₀ as
    UniqueEmails P pool.state ∧
    ∀ e, (∀ u ∈ s₀.users, P.toLowerCase u.email ≠ e) →
      let mine := pool.tasks.filter fun t => t.request.registers P e
      (∀ t ∈ mine, statuses t = [] ∨ statuses t = [201] ∨ statuses t = [409]) ∧
        mine.countP (fun t => statuses t = [201]) ≤ 1 ∧
        (mine ≠ [] → (∀ t ∈ mine, statuses t ≠ []) →
          mine.countP (fun t => statuses t = [201]) = 1) := by
  intro pool
  have h := registrationInv_runApi cfg hlower hs halone
  refine ⟨List.nodup_iff_count_le_one.mpr fun e => ?_, fun e he => h.answers ?_⟩
  · exact (Nat.le_add_right _ _).trans (h.alone e)
  · simpa [MemoryState.emails] using he

/-- Two users who register one email, the second in capitals. -/
def adaTwice : List Request :=
  [plainRegistration "ada" "ada@example.com" "secret1" "u_1",
    plainRegistration "adele" "ADA@example.com" "secret2" "u_2"]

/-- The two registrations arrive, and then their handlers run in the given order. -/
def adaSchedule (order : List ℕ) : List (Action Request) :=
  adaTwice.map Action.arrive ++ order.map Action.resume

/-- One after the other, the second registration is refused. -/
theorem registrations_in_turn :
    UniqueEmails plainPlatform (runApi plainPlatform plainConfig
      (createMemoryStore plainPlatform [] "salt" 0) (adaSchedule [0, 0, 0, 1, 1])).state := by
  have halone : StepsMeet (Pool.step (serve plainPlatform plainConfig))
      (fun pool a => startsAlone plainPlatform pool a = true)
      (Pool.initial (createMemoryStore plainPlatform [] "salt" 0))
      (adaSchedule [0, 0, 0, 1, 1]) := by
    decide +kernel
  exact (registrations_atomic plain_toLowerCase_idem uniqueEmails_createMemoryStore halone).1

/-- **Two registrations of one email that overlap are both answered 201**, and leave two users with
that email. -/
theorem concurrent_registrations_collide :
    ¬ UniqueEmails plainPlatform (runApi plainPlatform plainConfig
        (createMemoryStore plainPlatform [] "salt" 0) (adaSchedule [0, 1, 0, 1, 0, 1])).state ∧
      (runApi plainPlatform plainConfig (createMemoryStore plainPlatform [] "salt" 0)
        (adaSchedule [0, 1, 0, 1, 0, 1])).tasks.map statuses = [[201], [201]] := by
  unfold UniqueEmails
  decide +kernel

end LanguageGuru
