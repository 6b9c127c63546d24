import LanguageGuru.Backend.Middlewares
import LanguageGuru.Backend.Registration
import LanguageGuru.Backend.StoreEquivalence

/-!
# Requests on the MongoDB store

The API on the MongoDB store. A request that runs alone answers and changes the database as the
sequential model says; whatever other requests do meanwhile, the accounts keep their positions, ids,
emails and password hashes, and the lessons stay as they are.

## Main definitions

* `serveMongo P cfg`: the handler of a request behind the middlewares
* `MongoState.Grows`: what a database keeps while other requests run
* `MongoState.emails`: the emails of the accounts

## Main results

* `createApp_eq_serveMongo`: the application runs `serveMongo`
* `MongoState.grows_perform`: every store call grows the database
* `MongoState.exec_register`: a registration that runs alone
* `MongoState.ids_after`: a run adds the ids that its requests draw, and no others
-/

namespace LanguageGuru

open Process

variable (P : Platform) (cfg : Config)

/-- The handler of a request on the MongoDB store, behind the CORS middleware and the rate
limiter. -/
def serveMongo (req : Request) : Handler :=
  match req.payload with
  | .parsed body => routers P cfg "mongo" req body
  | .refused _ => errorHandler

/-- The handler shows its store on the health route only. -/
theorem serveMongo_eq_serve {req : Request} (he : req.endpoint ≠ some .health) :
    serveMongo P cfg req = serve P cfg req := by
  unfold serveMongo serve
  cases req.payload with
  | refused status => rfl
  | parsed body => exact routers_mode P cfg (.inr he) body

/-- The application runs `serveMongo` for a request that is no preflight and passes the limiter. -/
theorem createApp_eq_serveMongo {req : Request} {m : OrderedMap String ℕ}
    (hm : req.method ≠ .options) (hl : counter m req.arrival < cfg.requestLimit) :
    (createApp P cfg "mongo" req ⟨m, []⟩).2 = serveMongo P cfg req := by
  unfold serveMongo
  cases hp : req.payload with
  | refused status => rw [createApp_refused P cfg "mongo" hp]
  | parsed body => rw [createApp_parsed P cfg "mongo" hm hp, if_pos hl]

namespace MongoState

/-- The emails of the accounts. -/
def emails (s : MongoState) : List String := s.users.map User.email

/-- What a database keeps while other requests run: the accounts at their positions, and the
lessons. -/
structure Grows (s s' : MongoState) : Prop where
  accounts : s.users.map User.account <+: s'.users.map User.account
  lessons : s'.lessons = s.lessons

/-- The account that a search finds is found again, up to its name and role, when the accounts keep
their positions. -/
theorem find?_of_accounts {s s' : MongoState}
    (h : s.users.map User.account <+: s'.users.map User.account) (p : Account → Bool) {u : User}
    (hu : (s.users.find? fun u => p u.account) = some u) :
    ∃ u', (s'.users.find? fun u => p u.account) = some u' ∧ u'.account = u.account := by
  have hmap : ∀ users : List User, (users.map User.account).find? p =
      (users.find? fun u => p u.account).map User.account := fun users => List.find?_map
  have hfound : (s'.users.map User.account).find? p = some u.account := by
    refine h.find?_eq_some ?_
    rw [hmap, hu]
    rfl
  rw [hmap] at hfound
  exact Option.map_eq_some_iff.mp hfound

namespace Grows

variable {s s' s'' : MongoState}

theorem refl (s : MongoState) : Grows s s := ⟨List.prefix_rfl, rfl⟩

theorem trans (h : Grows s s') (h' : Grows s' s'') : Grows s s'' :=
  ⟨h.accounts.trans h'.accounts, h'.lessons.trans h.lessons⟩

theorem userByEmail (h : Grows s s') {P : Platform} {email : String} {u : User}
    (hu : s.userByEmail P email = some u) :
    ∃ u', s'.userByEmail P email = some u' ∧ u'.account = u.account :=
  find?_of_accounts h.accounts (fun a => a.email = P.toLowerCase email) hu

theorem userById (h : Grows s s') {id : String} {u : User} (hu : s.userById id = some u) :
    ∃ u', s'.userById id = some u' ∧ u'.account = u.account :=
  find?_of_accounts h.accounts (fun a => a.id = id) hu

theorem emails (h : Grows s s') : s.emails <+: s'.emails := by
  have hmap : ∀ t : MongoState, t.emails = (t.users.map User.account).map Account.email := by
    intro t
    rw [List.map_map]
    rfl
  rw [hmap, hmap]
  exact h.accounts.map _

theorem lessonById (h : Grows s s') (id : String) : s'.lessonById id = s.lessonById id := by
  rw [MongoState.lessonById, h.lessons]
  rfl

end Grows

section Calls

variable {P} {M : Mongoose}

theorem account_setRole (s : MongoState) (id role : String) :
    (s.setRole id role).users.map User.account = s.users.map User.account := by
  refine Keyed.map_update ?_ s.users
  exact fun _ _ => rfl

theorem grows_perform (c : StoreCall) (s : MongoState) :
    Grows s ((mongoStore P M).perform c s).2 := by
  show Grows s (MongoState.perform P M c s).2
  cases c with
  | findUserById id =>
    rw [MongoState.perform]
    split_ifs <;> exact Grows.refl s
  | createUser payload newId now =>
    rw [MongoState.perform]
    dsimp only
    split_ifs
    · exact Grows.refl s
    · exact Grows.refl s
    · exact ⟨by simp, rfl⟩
  | updateUserRole id role =>
    rw [MongoState.perform]
    split_ifs
    · exact ⟨(account_setRole s id role).symm ▸ List.prefix_rfl, rfl⟩
    · exact Grows.refl s
  | getLessons filters =>
    rw [MongoState.perform]
    split <;> exact Grows.refl s
  | _ => exact ⟨List.prefix_rfl, rfl⟩

/-- Only `createUser` changes the accounts. -/
theorem account_perform_other {c : StoreCall} (hc : c.isCreate = false) (s : MongoState) :
    ((mongoStore P M).perform c s).2.users.map User.account = s.users.map User.account := by
  show (MongoState.perform P M c s).2.users.map User.account = _
  cases c with
  | findUserById id =>
    rw [MongoState.perform]
    split_ifs <;> rfl
  | createUser payload newId now => cases hc
  | updateUserRole id role =>
    rw [MongoState.perform]
    split_ifs
    · exact account_setRole s id role
    · rfl
  | getLessons filters =>
    rw [MongoState.perform]
    split <;> rfl
  | _ => rfl

end Calls

/-! ## A request that runs alone -/

section Alone

variable {P cfg} {M : Mongoose} {req : Request}

/-- A registration that is accepted by the schema creates its user when the email is free. -/
theorem perform_createUser (hP : PlatformLaws P) {body : Json} {value : RegisterValue}
    (hv : registerSchema P body.orEmpty = .ok value) (s : MongoState) :
    (mongoStore P M).perform (createCall P req value) s =
      if P.toLowerCase value.email ∈ s.emails then
        (.error (.rejected "E11000 duplicate key error"), s)
      else
        let u := document P (newUser P value req.seeds.salt) req.seeds.newId req.seeds.storedAt
        (.ok u, s.addUser u) := by
  have hemail : P.toLowerCase (newUser P value req.seeds.salt).email =
      P.toLowerCase value.email := hP.toLowerCase_idem value.email
  have hvalid : ¬ ((newUser P value req.seeds.salt).username = "" ∨
      P.toLowerCase (newUser P value req.seeds.salt).email = "" ∨
        (newUser P value req.seeds.salt).passwordHash = "") := by
    rintro (hname | hempty | hhash)
    · exact username_ne_empty hv _ hname
    · exact hP.toLowerCase_ne_empty _ (email_ne_empty hv) (hemail ▸ hempty)
    · exact hP.hashSync_ne_empty _ _ hhash
  by_cases htaken : P.toLowerCase value.email ∈ s.emails
  · have hany : (s.users.any fun u =>
        u.email = P.toLowerCase (newUser P value req.seeds.salt).email) = true := by
      obtain ⟨u, hu, he⟩ := List.mem_map.mp htaken
      exact List.any_eq_true.mpr ⟨u, hu, by simp [hemail, he]⟩
    simp only [mongoStore, MongoState.perform, NewUser.record, if_neg hvalid, hany, if_true,
      if_pos htaken]
  · have hany : (s.users.any fun u =>
        u.email = P.toLowerCase (newUser P value req.seeds.salt).email) = false := by
      refine List.any_eq_false.mpr fun u hu he => htaken (List.mem_map.mpr ⟨u, hu, ?_⟩)
      rw [← hemail]
      exact of_decide_eq_true he
    simp only [mongoStore, MongoState.perform, NewUser.record, if_neg hvalid, hany,
      Bool.false_eq_true, if_false, if_neg htaken]
    rfl

/-- The lookup of an email finds nobody exactly when the email is free. -/
theorem userByEmail_eq_none {email : String} {s : MongoState} :
    s.userByEmail P email = none ↔ P.toLowerCase email ∉ s.emails := by
  simp [userByEmail, emails]

/-- The user that a registration creates. -/
abbrev registered (P : Platform) (req : Request) (value : RegisterValue) : User :=
  document P (newUser P value req.seeds.salt) req.seeds.newId req.seeds.storedAt

/-- A registration looks its email up, and creates its user when it found nobody. -/
theorem serveMongo_of_registration {value : RegisterValue} (hv : req.registration P = some value) :
    serveMongo P cfg req = Program.call (lookupCall value)
      (Program.onAnswer (registerFound P cfg req value)) := by
  have he : req.endpoint ≠ some .health := by
    obtain ⟨body, -, he, -⟩ := registration_eq_some.mp hv
    rw [he]
    nofun
  rw [serveMongo_eq_serve P cfg he]
  exact serve_of_registration hv

/-- A registration that runs alone. -/
theorem exec_registration (hP : PlatformLaws P) (cfg : Config) {value : RegisterValue}
    (hv : req.registration P = some value) (s : MongoState) :
    (serveMongo P cfg req).exec (mongoStore P M) s =
      if P.toLowerCase value.email ∈ s.emails then
        ⟨.ok (), [⟨409, .error "Email already registered"⟩], s⟩
      else
        let u := registered P req value
        ⟨.ok (), [⟨201, .session (signToken P cfg u req.seeds.signedAt) (sanitizeUser u)⟩],
          s.addUser u⟩ := by
  obtain ⟨body, -, -, hs⟩ := registration_eq_some.mp hv
  rw [serveMongo_of_registration hv, exec_findUserByEmail, Program.onAnswer_ok]
  by_cases htaken : P.toLowerCase value.email ∈ s.emails
  · obtain ⟨u, hu⟩ : ∃ u, s.userByEmail P value.email = some u := by
      rw [← Option.ne_none_iff_exists', Ne, userByEmail_eq_none]
      exact not_not_intro htaken
    rw [if_pos htaken, hu]
    rfl
  · have hcreate : (mongoStore P M).perform (createCall P req value) s = _ :=
      perform_createUser hP hs s
    rw [if_neg htaken] at hcreate
    rw [if_neg htaken, userByEmail_eq_none.mpr htaken, registerFound, Program.await_bind,
      Program.exec_call, hcreate]
    rfl

/-- A request that is no valid registration leaves the accounts alone. -/
theorem account_exec_other (cfg : Config) (hv : req.registration P = none) (s : MongoState) :
    ((serveMongo P cfg req).exec (mongoStore P M) s).state.users.map User.account =
      s.users.map User.account := by
  by_cases he : req.endpoint = some .health
  · have hhealth : (serveMongo P cfg req).Within (fun c => c.isCreate = false) fun _ => True := by
      unfold serveMongo routers
      cases req.payload with
      | refused status => exact Program.within_send trivial
      | parsed body =>
        rw [he]
        exact Program.within_send trivial
    exact hhealth.exec_state (f := fun t => t.users.map User.account)
      (fun c t hc => account_perform_other hc t) s
  · rw [serveMongo_eq_serve P cfg he]
    exact (serve_within_other hv).exec_state (f := fun t => t.users.map User.account)
      (fun c t hc => account_perform_other hc t) s

/-- The ids of the accounts. -/
def ids (s : MongoState) : List String := s.users.map User.id

theorem ids_eq_map_account (s : MongoState) :
    s.ids = (s.users.map User.account).map Account.id := by
  rw [List.map_map]
  rfl

/-- Requests that run alone add ids that they draw, each at most once. -/
theorem ids_run (hP : PlatformLaws P) (cfg : Config) (s : MongoState) (reqs : List Request) :
    (run (fun s r => ((serveMongo P cfg r).exec (mongoStore P M) s).state) s reqs).ids.Sublist
      (s.ids ++ reqs.map fun r => r.seeds.newId) := by
  induction reqs using List.reverseRecOn with
  | nil => simp
  | append_singleton reqs r ih =>
    rw [run_snoc, List.map_append, ← List.append_assoc]
    generalize run (fun s r => ((serveMongo P cfg r).exec (mongoStore P M) s).state) s reqs = t
      at ih
    cases hv : r.registration P with
    | none =>
      rw [ids_eq_map_account, account_exec_other cfg hv, ← ids_eq_map_account]
      exact ih.trans (List.sublist_append_left _ _)
    | some value =>
      rw [exec_registration hP cfg hv]
      split_ifs
      · exact ih.trans (List.sublist_append_left _ _)
      · -- the new id is the one that the request drew
        show (List.map User.id (t.users ++ [_])).Sublist _
        rw [List.map_append]
        exact ih.append (List.Sublist.refl _)

end Alone

end MongoState

end LanguageGuru
