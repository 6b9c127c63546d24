import LanguageGuru.Backend.MemoryRuns
import LanguageGuru.Process.Pool

/-!
# Requests in any interleaving

The API on the memory store under requests that arrive at any time and whose handlers are
interleaved at their await points. Whatever the others do, the ids of the users keep their
positions and the lessons stay as they are, so a reference that a handler holds across an await
still leads to the record that was found.

## Main definitions

* `runApi P cfg s as`: the pool of handlers after the actions `as`
* `Endpoint.mayCall`: the store calls that the handler of a route may make
* `Grows`: what a state keeps while other requests run

## Main results

* `serve_within`: a handler makes no calls but those of its route
* `grows_perform`: every store call grows the state
* `view_findUserById`: a user looked up by its id, as it is seen later
-/

namespace LanguageGuru

open Process

/-- The pool of handlers over the memory store. -/
abbrev ApiPool (P : Platform) := Pool Request (memoryStore P) Response Unit

/-- The pool after the actions `as`, started without requests in the state `s`. -/
def runApi (P : Platform) (cfg : Config) (s : MemoryState) (as : List (Action Request)) :
    ApiPool P :=
  run (Pool.step (serve P cfg)) (Pool.initial s) as

/-! ## The calls of a route -/

/-- The store calls that the handler of a route may make. -/
def Endpoint.mayCall : Endpoint → StoreCall → Bool
  | .ready, .ready => true
  | .register, .findUserByEmail _ => true
  | .register, .createUser _ _ _ => true
  | .login, .findUserByEmail _ => true
  | .login, .updateUserRole _ _ => true
  | .tracks, .findUserById _ => true
  | .tracks, .getLessons _ => true
  | .tracks, .getProgressForUser _ => true
  | .lessons, .findUserById _ => true
  | .lessons, .getLessons _ => true
  | .lessons, .getProgressForUser _ => true
  | .lesson _, .findUserById _ => true
  | .lesson _, .getLessonById _ => true
  | .lesson _, .getProgressForUser _ => true
  | .postProgress, .findUserById _ => true
  | .postProgress, .getLessonById _ => true
  | .postProgress, .upsertProgress _ _ => true
  | .postProgress, .getProgressForUser _ => true
  | .progress, .findUserById _ => true
  | .progress, .getProgressForUser _ => true
  | _, _ => false

section Calls

variable (P : Platform) (cfg : Config) (req : Request)

/-- A handler that makes no calls but those of the route `e`. -/
abbrev KeepsTo (e : Endpoint) (p : Handler) : Prop :=
  p.Within (fun c => e.mayCall c = true) fun _ => True

theorem keepsTo_sendJson (e : Endpoint) (status : ℕ) (b : Body) : KeepsTo e (sendJson status b) :=
  Program.within_send trivial

theorem keepsTo_await {e : Endpoint} {c : StoreCall} (hc : e.mayCall c = true)
    {f : Answer c → Handler} (hf : ∀ a, KeepsTo e (f a)) : KeepsTo e (awaitStore c >>= f) :=
  Program.within_await (C := fun c => e.mayCall c = true) hc hf

theorem keepsTo_authMiddleware {e : Endpoint} {next : User → Handler}
    (hid : ∀ id, e.mayCall (.findUserById id) = true) (hnext : ∀ user, KeepsTo e (next user)) :
    KeepsTo e (authMiddleware P cfg req next) := by
  have hauthenticated : ∀ r, KeepsTo e (authenticated next r) := by
    rintro (failure | _ | user)
    · exact keepsTo_sendJson _ _ _
    · exact keepsTo_sendJson _ _ _
    · exact hnext user
  unfold authMiddleware
  split
  · exact keepsTo_sendJson _ _ _
  · split_ifs
    · exact keepsTo_sendJson _ _ _
    · unfold authenticate
      split
      · refine ⟨hid _, fun r => ?_⟩
        cases r with
        | error failure => exact hauthenticated (.error failure)
        | ok user => exact hauthenticated (.ok user)
      · exact hauthenticated (.error (.thrown "invalid token"))

theorem keepsTo_register (body : Json) : KeepsTo .register (register P cfg req body) := by
  unfold register
  split
  · exact keepsTo_sendJson _ _ _
  · refine keepsTo_await rfl fun existing => ?_
    cases existing with
    | some u => exact keepsTo_sendJson _ _ _
    | none => exact keepsTo_await rfl fun u => keepsTo_sendJson _ _ _

theorem keepsTo_loginAnswer (user : Option User) :
    KeepsTo .login (loginAnswer P cfg req user) := by
  cases user with
  | none => exact trivial
  | some u => exact keepsTo_sendJson _ _ _

theorem keepsTo_login (body : Json) : KeepsTo .login (login P cfg req body) := by
  unfold login
  split
  · exact keepsTo_sendJson _ _ _
  · refine keepsTo_await rfl fun found => ?_
    cases found with
    | none => exact keepsTo_sendJson _ _ _
    | some user =>
      unfold loginFound
      dsimp only
      split_ifs
      · exact keepsTo_sendJson _ _ _
      · exact keepsTo_await rfl fun u => keepsTo_loginAnswer P cfg req u
      · exact keepsTo_loginAnswer P cfg req _

theorem keepsTo_postProgress (body : Json) (user : User) :
    KeepsTo .postProgress (postProgress P req body user) := by
  unfold postProgress
  split
  · exact keepsTo_sendJson _ _ _
  · refine keepsTo_await rfl fun lesson => ?_
    cases lesson with
    | none => exact keepsTo_sendJson _ _ _
    | some l =>
      exact keepsTo_await rfl fun _ =>
        keepsTo_await rfl fun _ => keepsTo_sendJson _ _ _

/-- **A handler makes no calls but those of its route.** -/
theorem serve_within :
    (serve P cfg req).Within (fun c => ∃ e, req.endpoint = some e ∧ e.mayCall c = true)
      fun _ => True := by
  have hroute : ∀ {e : Endpoint} {p : Handler}, req.endpoint = some e → KeepsTo e p →
      p.Within (fun c => ∃ e, req.endpoint = some e ∧ e.mayCall c = true) fun _ => True :=
    fun he hp => hp.mono (fun c hc => ⟨_, he, hc⟩) fun _ h => h
  unfold serve
  cases req.payload with
  | refused status => exact Program.within_send trivial
  | parsed body =>
    unfold routers
    cases he : req.endpoint with
    | none => exact Program.within_send trivial
    | some e =>
      rw [he] at hroute
      cases e with
      | health => exact Program.within_send trivial
      | ready =>
        refine hroute rfl (keepsTo_await rfl fun ready => ?_)
        split_ifs <;> exact keepsTo_sendJson _ _ _
      | register => exact hroute rfl (keepsTo_register P cfg req body)
      | login => exact hroute rfl (keepsTo_login P cfg req body)
      | tracks =>
        refine hroute rfl (keepsTo_authMiddleware P cfg req (fun _ => rfl) fun user => ?_)
        exact keepsTo_await rfl fun _ =>
          keepsTo_await rfl fun _ => keepsTo_sendJson _ _ _
      | lessons =>
        refine hroute rfl (keepsTo_authMiddleware P cfg req (fun _ => rfl) fun user => ?_)
        exact keepsTo_await rfl fun _ =>
          keepsTo_await rfl fun _ => keepsTo_sendJson _ _ _
      | lesson id =>
        cases id with
        | none => exact Program.within_send trivial
        | some id =>
          refine hroute rfl (keepsTo_authMiddleware P cfg req (fun _ => rfl) fun user => ?_)
          refine keepsTo_await rfl fun lesson => ?_
          cases lesson with
          | none => exact keepsTo_sendJson _ _ _
          | some l => exact keepsTo_await rfl fun _ => keepsTo_sendJson _ _ _
      | postProgress =>
        exact hroute rfl (keepsTo_authMiddleware P cfg req (fun _ => rfl) fun user =>
          keepsTo_postProgress P req body user)
      | progress =>
        refine hroute rfl (keepsTo_authMiddleware P cfg req (fun _ => rfl) fun user => ?_)
        exact keepsTo_await rfl fun _ => keepsTo_sendJson _ _ _

end Calls

/-! ## What the others leave -/

/-- What a state keeps while other requests run: the ids of the users at their positions, and the
lessons. -/
structure Grows (s s' : MemoryState) : Prop where
  ids : s.users.map User.id <+: s'.users.map User.id
  lessons : s'.lessons = s.lessons

namespace Grows

variable {s s' s'' : MemoryState}

theorem refl (s : MemoryState) : Grows s s := ⟨List.prefix_rfl, rfl⟩

theorem trans (h : Grows s s') (h' : Grows s' s'') : Grows s s'' :=
  ⟨h.ids.trans h'.ids, h'.lessons.trans h.lessons⟩

/-- The record at a position keeps its id. -/
theorem getElem? (h : Grows s s') {i : ℕ} {u : User} (hu : s.users[i]? = some u) :
    ∃ u', s'.users[i]? = some u' ∧ u'.id = u.id := by
  obtain ⟨rest, hrest⟩ := h.ids
  have hid : (s'.users.map User.id)[i]? = some u.id := by
    have hlt : i < (s.users.map User.id).length := by
      simpa using (List.getElem?_eq_some_iff.mp hu).1
    rw [← hrest, List.getElem?_append_left hlt, List.getElem?_map, hu, Option.map_some]
  rw [List.getElem?_map] at hid
  obtain ⟨u', hu', he⟩ := Option.map_eq_some_iff.mp hid
  exact ⟨u', hu', he⟩

/-- A reference that a search found leads to a record with the id that was found, and a search
that found nothing leads nowhere. -/
theorem findIdx? (h : Grows s s') (p : User → Bool) :
    (s.users.findIdx? p = none ∧ (s.users.findIdx? p).bind (s'.users[·]?) = none) ∨
      ∃ u u', s.users.find? p = some u ∧
        (s.users.findIdx? p).bind (s'.users[·]?) = some u' ∧ u' ∈ s'.users ∧ u'.id = u.id := by
  cases hi : s.users.findIdx? p with
  | none => exact .inl ⟨rfl, rfl⟩
  | some i =>
    have hfind : s.users.find? p = s.users[i]? := by
      rw [← Keyed.findIdx?_bind_getElem?, hi, Option.bind_some]
    have hlt : i < s.users.length := (List.findIdx?_eq_some_iff_findIdx_eq.mp hi).1
    have hu : s.users[i]? = some s.users[i] := List.getElem?_eq_getElem hlt
    obtain ⟨u', hu', hid⟩ := h.getElem? hu
    exact .inr ⟨s.users[i], u', hfind.trans hu, hu', List.mem_of_getElem? hu', hid⟩

end Grows

theorem grows_perform (P : Platform) (c : StoreCall) (s : MemoryState) :
    Grows s ((memoryStore P).perform c s).2 := by
  cases c with
  | createUser payload newId now => exact ⟨by simp [memoryStore, MemoryState.perform], rfl⟩
  | updateUserRole id role =>
    refine ⟨?_, rfl⟩
    have hids : (Keyed.update User.id id (fun u => { u with role }) s.users).map User.id =
        s.users.map User.id := by
      refine Keyed.map_update ?_ s.users
      exact fun _ _ => rfl
    simp [memoryStore, MemoryState.perform, hids]
  | _ => exact ⟨List.prefix_rfl, rfl⟩

theorem grows_replay (P : Platform) (cs : List StoreCall) (s : MemoryState) :
    Grows s ((memoryStore P).replay s cs) := by
  induction cs using List.reverseRecOn with
  | nil => exact Grows.refl s
  | append_singleton cs c ih =>
    rw [Service.replay_snoc]
    exact ih.trans (grows_perform P c _)

/-- What a lookup by id sees when its handler resumes: nobody, or a user of that state with the
id. -/
theorem view_findUserById {P : Platform} {s s' : MemoryState} (h : Grows s s') (id : String) :
    let c := StoreCall.findUserById id
    (memoryStore P).view c ((memoryStore P).perform c s).1 s' = .ok none ∨
      ∃ u, (memoryStore P).view c ((memoryStore P).perform c s).1 s' = .ok (some u) ∧
        u ∈ s'.users ∧ u.id = id := by
  rcases h.findIdx? fun u => u.id = id with ⟨-, hnone⟩ | ⟨u, u', hu, hu', hmem, hid⟩
  · exact .inl (congrArg Except.ok hnone)
  · have hfound : u.id = id := by simpa using List.find?_some hu
    exact .inr ⟨u', congrArg Except.ok hu', hmem, hid.trans hfound⟩

end LanguageGuru
