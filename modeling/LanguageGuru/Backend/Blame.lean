import LanguageGuru.Backend.Authentication
import LanguageGuru.Backend.Middlewares

/-!
# Whom a status blames

A response blames the server with a 5xx status and the request with a 4xx status. The application
blames the right side unless the error handler answers for the request, which it does for a body
or a path that cannot be read, or the lookup of the authentication middleware is rejected.

## Main definitions

* `ComponentFailed`: a store call that rejects, or a store that is not ready
* `RequestFault`, `FaultyAnswer`: what is wrong with a request, by itself and by the store's answers
* `BlamesRight`: the status of a response is in the class of the side at fault

## Main results

* `blames_right_iff`: when the responses to a request blame the right side
-/

namespace LanguageGuru

open Process

/-- A store call with its outcome. -/
abbrev Entry := Σ c : StoreCall, Except Failure (Answer c)

/-- A store call rejects, or the store is not ready. -/
def ComponentFailed : Entry → Prop
  | ⟨_, .error _⟩ => True
  | ⟨.ready, .ok ready⟩ => ready = false
  | _ => False

/-- The lookup of the authentication middleware rejects. -/
def LookupRejected : Entry → Prop
  | ⟨.findUserById _, .error _⟩ => True
  | _ => False

section Faults

variable (P : Platform) (cfg : Config) (req : Request)

/-- What is wrong with a request for a route by itself: a schema violation, a missing, invalid or
expired token, or a path that cannot be decoded. -/
def EndpointFault : Endpoint → Prop
  | .register => ∃ message, registerSchema P req.body.orEmpty = .error message
  | .login => ∃ message, loginSchema P req.body.orEmpty = .error message
  | .postProgress =>
    req.subject P cfg = none ∨ ∃ message, progressSchema P req.body.orEmpty = .error message
  | .lesson none => True
  | .lesson (some _) => req.subject P cfg = none
  | .tracks => req.subject P cfg = none
  | .lessons => req.subject P cfg = none
  | .progress => req.subject P cfg = none
  | .health => False
  | .ready => False

/-- What is wrong with a request by itself: its body, the number of its predecessors, its route, or
what it sends to the route. A preflight is neither counted nor routed. -/
def RequestFault (requestsByIp : OrderedMap String ℕ) : Prop :=
  (∃ status, req.payload = .refused status) ∨
  (req.method ≠ .options ∧ cfg.requestLimit ≤ counter requestsByIp req.arrival) ∨
  (req.method ≠ .options ∧ req.endpoint = none) ∨
  ∃ e, req.endpoint = some e ∧ EndpointFault P cfg req e

/-- The account under the email of a request puts the request in the wrong: a registration of a
registered email, a login with wrong credentials. -/
def AccountFault (account : Option User) : Prop :=
  match req.endpoint with
  | some .register => account ≠ none
  | some .login => ∀ user, account = some user → ∃ value,
      loginSchema P req.body.orEmpty = .ok value ∧
        P.compareSync value.password user.passwordHash = false
  | _ => False

/-- The answer of the store puts the request in the wrong: an unknown user or lesson, or the
account under its email. -/
def FaultyAnswer : Entry → Prop
  | ⟨.findUserById _, .ok user⟩ => user = none
  | ⟨.getLessonById _, .ok lesson⟩ => lesson = none
  | ⟨.findUserByEmail _, .ok account⟩ => AccountFault P req account
  | _ => False

/-- The request is at fault, given the outcomes of the store calls. -/
def AtFault (requestsByIp : OrderedMap String ℕ) (journal : List Entry) : Prop :=
  RequestFault P cfg req requestsByIp ∨ ∃ e ∈ journal, FaultyAnswer P req e

/-- A 5xx status if and only if a server component failed, and a 4xx status if and only if the
request is at fault. -/
def BlamesRight (requestsByIp : OrderedMap String ℕ) (journal : List Entry) (r : Response) : Prop :=
  (500 ≤ r.status ∧ r.status < 600 ↔ ∃ e ∈ journal, ComponentFailed e) ∧
    (400 ≤ r.status ∧ r.status < 500 ↔ AtFault P cfg req requestsByIp journal)

end Faults

/-! ## Conclusions of the handlers -/

section Conclusions

variable (P : Platform) (cfg : Config) (req : Request) (m : OrderedMap String ℕ)

/-- A handler that emits a response blames the right side with it, unless the lookup of the
middleware was rejected; one that emits nothing has no rejected lookup. -/
def Concluded (journal : List Entry) : Option Response → Prop
  | none => ∀ e ∈ journal, ¬ LookupRejected e
  | some r => BlamesRight P cfg req m journal r ↔ ∀ e ∈ journal, ¬ LookupRejected e

/-- The calls so far neither failed nor put the request in the wrong. -/
def Clean (journal : List Entry) : Prop :=
  ∀ e ∈ journal, ¬ ComponentFailed e ∧ ¬ FaultyAnswer P req e

variable {P cfg req m} {journal : List Entry}

theorem LookupRejected.componentFailed {e : Entry} (h : LookupRejected e) : ComponentFailed e := by
  obtain ⟨c, r⟩ := e
  cases r with
  | error f => exact trivial
  | ok a => cases c <;> exact h.elim

variable (P req) in
theorem clean_nil : Clean P req [] := fun _ he => absurd he List.not_mem_nil

theorem Clean.snoc (h : Clean P req journal) {e : Entry} (hfailed : ¬ ComponentFailed e)
    (hfaulty : ¬ FaultyAnswer P req e) : Clean P req (journal ++ [e]) := by
  intro e' he'
  rcases List.mem_append.mp he' with hold | hnew
  · exact h e' hold
  · rw [List.mem_singleton.mp hnew]
    exact ⟨hfailed, hfaulty⟩

theorem Clean.not_failed (h : Clean P req journal) : ¬ ∃ e ∈ journal, ComponentFailed e :=
  fun ⟨e, he, hf⟩ => (h e he).1 hf

theorem Clean.not_rejected (h : Clean P req journal) : ∀ e ∈ journal, ¬ LookupRejected e :=
  fun e he hr => (h e he).1 hr.componentFailed

/-- Only the readiness of the store is bad news in an answer. -/
theorem not_componentFailed {c : StoreCall} (hc : c ≠ .ready) (a : Answer c) :
    ¬ ComponentFailed ⟨c, .ok a⟩ := by
  cases c with
  | ready => exact absurd rfl hc
  | _ => exact fun h => h

/-- A success, when nothing is wrong. -/
theorem concluded_success (h : Clean P req journal) (hfault : ¬ RequestFault P cfg req m)
    {r : Response} (hstatus : r.status < 400) : Concluded P cfg req m journal (some r) := by
  refine iff_of_true ⟨?_, ?_⟩ h.not_rejected
  · exact iff_of_false (by omega) h.not_failed
  · refine iff_of_false (by omega) ?_
    rintro (hreq | ⟨e, he, hf⟩)
    · exact hfault hreq
    · exact (h e he).2 hf

/-- A 4xx response, when the request is at fault and no call failed. -/
theorem concluded_fault (hfailed : ¬ ∃ e ∈ journal, ComponentFailed e)
    (hfault : AtFault P cfg req m journal) {r : Response} (hlow : 400 ≤ r.status)
    (hhigh : r.status < 500) : Concluded P cfg req m journal (some r) := by
  refine iff_of_true ⟨?_, ?_⟩ fun e he hr => hfailed ⟨e, he, hr.componentFailed⟩
  · exact iff_of_false (by omega) hfailed
  · exact iff_of_true ⟨hlow, hhigh⟩ hfault

/-- A 4xx response to an answer that puts the request in the wrong. -/
theorem concluded_answer (h : Clean P req journal) {e : Entry} (hfailed : ¬ ComponentFailed e)
    (hfaulty : FaultyAnswer P req e) {r : Response} (hlow : 400 ≤ r.status)
    (hhigh : r.status < 500) : Concluded P cfg req m (journal ++ [e]) (some r) := by
  apply concluded_fault _ (.inr ⟨e, by simp, hfaulty⟩) hlow hhigh
  rintro ⟨e', he', hf⟩
  rcases List.mem_append.mp he' with hold | hnew
  · exact (h e' hold).1 hf
  · exact hfailed (List.mem_singleton.mp hnew ▸ hf)

/-- A store call of a route handler: when it rejects, nothing is sent. -/
theorem concludes_call (h : Clean P req journal) {c : StoreCall} (hc : ∀ id, c ≠ .findUserById id)
    {f : Answer c → Handler}
    (hf : ∀ a, (f a).Concludes (Concluded P cfg req m) (journal ++ [⟨c, .ok a⟩])) :
    (awaitStore c >>= f).Concludes (Concluded P cfg req m) journal := by
  refine Program.concludes_await (fun failure e he hr => ?_) hf
  rcases List.mem_append.mp he with hold | hnew
  · exact h.not_rejected e hold hr
  · obtain rfl := List.mem_singleton.mp hnew
    cases c with
    | findUserById id => exact hc id rfl
    | _ => exact hr

/-- A handler behind the authentication middleware. -/
theorem concludes_authMiddleware {next : User → Handler}
    (hnone : req.subject P cfg = none → RequestFault P cfg req m)
    (hnext : ∀ id user, req.subject P cfg = some id →
      (next user).Concludes (Concluded P cfg req m) [⟨.findUserById id, .ok (some user)⟩]) :
    (authMiddleware P cfg req next).Concludes (Concluded P cfg req m) [] := by
  have hunauthorized : ∀ message, req.subject P cfg = none →
      (sendJson 401 (.error message)).Concludes (Concluded P cfg req m) [] := fun message hs =>
    Program.concludes_send
      (concluded_fault (clean_nil P req).not_failed (.inl (hnone hs)) (by simp) (by simp))
  unfold authMiddleware
  unfold Request.subject at hunauthorized hnext
  -- along the checks of the middleware: no token, an invalid one, a lookup that is rejected, a
  -- subject that is unknown, and the handler behind
  cases hb : bearerToken (req.authorization.getD "") with
  | none => exact hunauthorized _ (by rw [hb])
  | some token =>
    simp only [hb] at hunauthorized hnext ⊢
    split_ifs with htoken
    · exact hunauthorized _ (if_pos htoken)
    · simp only [if_neg htoken] at hunauthorized hnext
      unfold authenticate
      cases hv : P.jwtVerify token cfg.jwtSecret req.seeds.verifiedAt with
      | none => exact hunauthorized _ (by rw [hv]; rfl)
      | some payload =>
        rw [hv] at hnext
        rintro (failure | _ | user)
        -- the `catch` reports a rejected lookup as an invalid token
        · refine Program.concludes_send (iff_of_false ?_ ?_)
          · rintro ⟨hserver, -⟩
            have hfive := hserver.mpr ⟨_, List.mem_singleton_self _, trivial⟩
            exact absurd hfive (by decide)
          · intro hclean
            exact hclean _ (List.mem_singleton_self _) trivial
        · apply Program.concludes_send
          apply concluded_answer (clean_nil P req) (not_componentFailed (by simp) _) _ (by simp)
            (by simp)
          simp [FaultyAnswer]
        · exact hnext payload.sub user rfl

/-! ## The routes -/

/-- A request that is routed is at fault by itself when it is for its route. -/
theorem requestFault_routed {body : Json} (hp : req.payload = .parsed body)
    (hpass : counter m req.arrival < cfg.requestLimit) {e : Endpoint}
    (he : req.endpoint = some e) : RequestFault P cfg req m ↔ EndpointFault P cfg req e := by
  simp [RequestFault, hp, he, hpass]

/-- A body that passes its schema does not violate it. -/
theorem not_exists_error {α : Type} {r : Except String α} {value : α} (h : r = .ok value) :
    ¬ ∃ message, r = .error message := by
  rintro ⟨message, hm⟩
  rw [h] at hm
  cases hm

/-- The answer to a call of a learning route that finds the user of the token. -/
theorem clean_identified (id : String) (user : User) :
    Clean P req [⟨.findUserById id, .ok (some user)⟩] := by
  refine (clean_nil P req).snoc (not_componentFailed (by simp) _) ?_
  simp [FaultyAnswer]

theorem concludes_register (hfault : RequestFault P cfg req m ↔ EndpointFault P cfg req .register)
    (he : req.endpoint = some .register) :
    (register P cfg req req.body).Concludes (Concluded P cfg req m) [] := by
  unfold register
  cases hschema : registerSchema P req.body.orEmpty with
  | error message =>
    have hreq : RequestFault P cfg req m := hfault.mpr ⟨message, hschema⟩
    exact Program.concludes_send
      (concluded_fault (clean_nil P req).not_failed (.inl hreq) (by simp) (by simp))
  | ok value =>
    have hreq : ¬ RequestFault P cfg req m := fun h => not_exists_error hschema (hfault.mp h)
    refine concludes_call (clean_nil P req) (by simp) fun existing => ?_
    cases existing with
    | some user =>
      -- the 409 for a registered email
      apply Program.concludes_send
      apply concluded_answer (clean_nil P req) (not_componentFailed (by simp) _) _ (by simp)
        (by simp)
      simp [FaultyAnswer, AccountFault, he]
    | none =>
      have hclean : Clean P req [⟨.findUserByEmail value.email, .ok none⟩] :=
        (clean_nil P req).snoc (not_componentFailed (by simp) _)
          (by simp [FaultyAnswer, AccountFault, he])
      refine concludes_call hclean (by simp) fun user => ?_
      have hcreated := hclean.snoc (not_componentFailed
        (c := .createUser (newUser P value req.seeds.salt) req.seeds.newId req.seeds.storedAt)
        (by simp) user) fun h => h
      exact Program.concludes_send (concluded_success hcreated hreq (by simp))

theorem concludes_login (hfault : RequestFault P cfg req m ↔ EndpointFault P cfg req .login)
    (he : req.endpoint = some .login) :
    (login P cfg req req.body).Concludes (Concluded P cfg req m) [] := by
  unfold login
  cases hschema : loginSchema P req.body.orEmpty with
  | error message =>
    have hreq : RequestFault P cfg req m := hfault.mpr ⟨message, hschema⟩
    exact Program.concludes_send
      (concluded_fault (clean_nil P req).not_failed (.inl hreq) (by simp) (by simp))
  | ok value =>
    have hreq : ¬ RequestFault P cfg req m := fun h => not_exists_error hschema (hfault.mp h)
    refine concludes_call (clean_nil P req) (by simp) fun found => ?_
    -- both 401s blame the account that was found, or not
    have hwrong : (∀ user, found = some user →
        P.compareSync value.password user.passwordHash = false) →
        FaultyAnswer P req ⟨.findUserByEmail value.email, .ok found⟩ := by
      intro h
      simp only [FaultyAnswer, AccountFault, he]
      exact fun user hu => ⟨value, hschema, h user hu⟩
    cases found with
    | none =>
      exact Program.concludes_send (concluded_answer (clean_nil P req)
        (not_componentFailed (by simp) _) (hwrong fun user hu => by cases hu) (by simp) (by simp))
    | some user =>
      unfold loginFound
      dsimp only
      split_ifs with hpassword hrole
      · refine Program.concludes_send (concluded_answer (clean_nil P req)
          (not_componentFailed (by simp) _) (hwrong fun user' hu => ?_) (by simp) (by simp))
        obtain rfl := Option.some.inj hu
        exact hpassword
      -- the password is right, so the account does not put the request in the wrong
      all_goals
        have hclean : Clean P req [⟨.findUserByEmail value.email, .ok (some user)⟩] := by
          refine (clean_nil P req).snoc (not_componentFailed (by simp) _) ?_
          simp only [FaultyAnswer, AccountFault, he]
          intro h
          obtain ⟨value', hv, hwrong⟩ := h user rfl
          rw [hschema] at hv
          obtain rfl := Except.ok.inj hv
          exact hpassword hwrong
      · refine concludes_call hclean (by simp) fun updated => ?_
        have hupdated := hclean.snoc (not_componentFailed
          (c := .updateUserRole user.id (requestedRole value)) (by simp) updated) fun h => h
        cases updated with
        -- an update that finds no user throws, and nothing is sent
        | none => exact hupdated.not_rejected
        | some updated =>
          exact Program.concludes_send (concluded_success hupdated hreq (by simp))
      · exact Program.concludes_send (concluded_success hclean hreq (by simp))

/-- The progress of a user, and an answer that is made of it: the end of every learning route. -/
theorem concludes_progress (hclean : Clean P req journal) (hreq : ¬ RequestFault P cfg req m)
    (user : User) {status : ℕ} (hstatus : status < 400) (body : List ProgressRecord → Body) :
    (awaitStore (.getProgressForUser user.id) >>= fun progress =>
      sendJson status (body progress)).Concludes (Concluded P cfg req m) journal := by
  refine concludes_call hclean (by simp) fun records => ?_
  have hread := hclean.snoc
    (not_componentFailed (c := .getProgressForUser user.id) (by simp) records) fun h => h
  exact Program.concludes_send (concluded_success hread hreq hstatus)

/-- The lessons that some filters select and the progress of a user, and an answer that is made of
both. -/
theorem concludes_lessons (hclean : Clean P req journal) (hreq : ¬ RequestFault P cfg req m)
    (user : User) (f : Filters) (body : List Lesson → List ProgressRecord → Body) :
    (awaitStore (.getLessons f) >>= fun found => awaitStore (.getProgressForUser user.id) >>=
      fun progress => sendJson 200 (body found progress)).Concludes (Concluded P cfg req m)
        journal := by
  refine concludes_call hclean (by simp) fun found => ?_
  have hfound := hclean.snoc (not_componentFailed (c := .getLessons f) (by simp) found) fun h => h
  exact concludes_progress hfound hreq user (by simp) (body found)

/-- A learning route that answers to a lesson, which may be unknown. -/
theorem concludes_lesson (hclean : Clean P req journal) (lessonId : String)
    {f : Option Lesson → Handler} (hnone : f none = sendJson 404 (.error "Lesson not found"))
    (hsome : ∀ lesson, Clean P req (journal ++ [⟨.getLessonById lessonId, .ok (some lesson)⟩]) →
      (f (some lesson)).Concludes (Concluded P cfg req m)
        (journal ++ [⟨.getLessonById lessonId, .ok (some lesson)⟩])) :
    (awaitStore (.getLessonById lessonId) >>= f).Concludes (Concluded P cfg req m) journal := by
  refine concludes_call hclean (by simp) fun lesson => ?_
  cases lesson with
  | none =>
    rw [hnone]
    apply Program.concludes_send
    apply concluded_answer hclean (not_componentFailed (by simp) _) _ (by simp) (by simp)
    simp [FaultyAnswer]
  | some lesson =>
    apply hsome
    refine hclean.snoc (not_componentFailed (by simp) _) ?_
    simp [FaultyAnswer]

theorem concludes_postProgress
    (hfault : RequestFault P cfg req m ↔ EndpointFault P cfg req .postProgress) (user : User)
    {id : String} (hs : req.subject P cfg = some id) :
    (postProgress P req req.body user).Concludes (Concluded P cfg req m)
      [⟨.findUserById id, .ok (some user)⟩] := by
  have hclean : Clean P req [⟨.findUserById id, .ok (some user)⟩] := clean_identified id user
  unfold postProgress
  cases hschema : progressSchema P req.body.orEmpty with
  | error message =>
    have hreq : RequestFault P cfg req m := hfault.mpr (.inr ⟨message, hschema⟩)
    exact Program.concludes_send
      (concluded_fault hclean.not_failed (.inl hreq) (by simp) (by simp))
  | ok value =>
    have hreq : ¬ RequestFault P cfg req m := by
      intro h
      rcases hfault.mp h with hnone | herror
      · exact absurd hnone (hs ▸ Option.some_ne_none id)
      · exact not_exists_error hschema herror
    refine concludes_lesson hclean value.lessonId rfl fun lesson hfound => ?_
    refine concludes_call hfound (by simp) fun written => ?_
    have hwritten := hfound.snoc (not_componentFailed
      (c := .upsertProgress (progressWrite user value) req.seeds.storedAt) (by simp) written)
      fun h => h
    exact concludes_progress hwritten hreq user (by decide) fun records =>
      .progress (formatProgress records)

/-- The check of the store blames it when it is not ready, and nobody otherwise. -/
theorem concludes_ready (hreq : ¬ RequestFault P cfg req m) :
    (ready : Handler).Concludes (Concluded P cfg req m) [] := by
  refine concludes_call (clean_nil P req) (by simp) fun ready => ?_
  cases ready with
  | true =>
    have hready : Clean P req [⟨.ready, .ok true⟩] :=
      (clean_nil P req).snoc (by simp [ComponentFailed]) fun h => h
    exact Program.concludes_send (concluded_success hready hreq (by simp))
  | false =>
    refine Program.concludes_send (iff_of_true ⟨?_, ?_⟩ ?_)
    · exact iff_of_true (by simp) ⟨⟨.ready, .ok false⟩, by simp, rfl⟩
    · -- the 503 is no fault of the request
      refine iff_of_false (by simp) ?_
      rintro (hfault | ⟨entry, hentry, hfaulty⟩)
      · exact hreq hfault
      · obtain rfl := List.mem_singleton.mp hentry
        exact hfaulty
    · intro entry hentry hr
      obtain rfl := List.mem_singleton.mp hentry
      exact hr

/-- Every route but a path that cannot be decoded blames the right side, unless the lookup of the
middleware is rejected. -/
theorem concludes_routers {body : Json} (hp : req.payload = .parsed body)
    (hm : req.method ≠ .options) (hpass : counter m req.arrival < cfg.requestLimit)
    (hpath : req.endpoint ≠ some (.lesson none)) (mode : String) :
    (routers P cfg mode req req.body).Concludes (Concluded P cfg req m) [] := by
  -- what a learning route asks of the token, and nothing else, is a fault of the request
  have hlearning : ∀ {e}, req.endpoint = some e →
      (EndpointFault P cfg req e ↔ req.subject P cfg = none) →
      (req.subject P cfg = none → RequestFault P cfg req m) ∧
        ∀ id, req.subject P cfg = some id → ¬ RequestFault P cfg req m := by
    intro e he hsubject
    rw [requestFault_routed hp hpass he, hsubject]
    exact ⟨fun h => h, fun id hs => hs ▸ Option.some_ne_none id⟩
  unfold routers
  cases he : req.endpoint with
  | none =>
    have hreq : RequestFault P cfg req m := .inr (.inr (.inl ⟨hm, he⟩))
    exact Program.concludes_send
      (concluded_fault (clean_nil P req).not_failed (.inl hreq) (by simp) (by simp))
  | some e =>
    have hfault := requestFault_routed (P := P) hp hpass he
    cases e with
    | health =>
      exact Program.concludes_send (concluded_success (clean_nil P req) hfault.mp (by simp))
    | ready => exact concludes_ready hfault.mp
    | register => exact concludes_register hfault he
    | login => exact concludes_login hfault he
    | tracks =>
      obtain ⟨hnone, hsome⟩ := hlearning he Iff.rfl
      refine concludes_authMiddleware hnone fun id user hs => ?_
      exact concludes_lessons (clean_identified id user) (hsome id hs) user {} fun found records =>
        .tracks (buildTrackStats .double found records)
    | lessons =>
      obtain ⟨hnone, hsome⟩ := hlearning he Iff.rfl
      refine concludes_authMiddleware hnone fun id user hs => ?_
      exact concludes_lessons (clean_identified id user) (hsome id hs) user req.query
        fun found records => .lessons (found.map fun l => toLessonResponse l (progressMap records))
    | lesson lessonId =>
      cases lessonId with
      | none => exact absurd he hpath
      | some lessonId =>
        obtain ⟨hnone, hsome⟩ := hlearning he Iff.rfl
        refine concludes_authMiddleware hnone fun id user hs => ?_
        refine concludes_lesson (clean_identified id user) lessonId rfl fun lesson hfound => ?_
        exact concludes_progress hfound (hsome id hs) user (by decide) fun records =>
          .lesson (toLessonResponse lesson (progressMap records))
    | postProgress =>
      refine concludes_authMiddleware (fun h => hfault.mpr (.inl h)) fun id user hs => ?_
      exact concludes_postProgress hfault user hs
    | progress =>
      obtain ⟨hnone, hsome⟩ := hlearning he Iff.rfl
      refine concludes_authMiddleware hnone fun id user hs => ?_
      exact concludes_progress (clean_identified id user) (hsome id hs) user (by decide)
        fun records => .progress (formatProgress records)

/-- The application blames the right side for a request that it can read, unless the lookup of the
middleware is rejected. -/
theorem concludes_createApp {body : Json} (hp : req.payload = .parsed body)
    (hpath : req.endpoint = some (.lesson none) → cfg.requestLimit ≤ counter m req.arrival)
    (mode : String) :
    (createApp P cfg mode req ⟨m, []⟩).2.Concludes (Concluded P cfg req m) [] := by
  by_cases hm : req.method = .options
  · -- a preflight is answered by the CORS middleware, and nothing is wrong with it
    have hreq : ¬ RequestFault P cfg req m := by
      have he : req.endpoint = none := by
        unfold Request.endpoint
        rw [hm]
        rfl
      simp [RequestFault, hp, hm, he]
    rw [createApp_preflight P cfg mode hm hp]
    exact Program.concludes_send (concluded_success (clean_nil P req) hreq (by simp))
  · rw [createApp_parsed P cfg mode hm hp]
    have hbody : req.body = body := by simp only [Request.body, hp]
    dsimp only
    split_ifs with hpass
    · rw [← hbody]
      refine concludes_routers hp hm hpass (fun he => ?_) mode
      exact absurd (hpath he) (by omega)
    · -- the 429 of the limiter
      have hreq : RequestFault P cfg req m := .inr (.inl ⟨hm, by omega⟩)
      exact Program.concludes_send
        (concluded_fault (clean_nil P req).not_failed (.inl hreq) (by simp) (by simp))

/-- The error handler blames the server for what no component did. -/
theorem not_blamesRight_errorHandler :
    ¬ BlamesRight P cfg req m [] ⟨500, .error "Internal Server Error"⟩ := by
  rintro ⟨hserver, -⟩
  exact (clean_nil P req).not_failed (hserver.mp (by simp))

end Conclusions

/-- **The responses to a request blame the right side if and only if** its body is accepted, its
path can be decoded (or the limiter rejects it), and the lookup of the authentication middleware is
not rejected. The store and its state are arbitrary, so every call may end in any way. -/
theorem blames_right_iff (P : Platform) (cfg : Config) (mode : String) {S : Type} (V : Store S)
    (req : Request) (m : OrderedMap String ℕ) (s : S) :
    let p := (createApp P cfg mode req ⟨m, []⟩).2
    (∀ r ∈ (p.exec V s).sent, BlamesRight P cfg req m (p.journal V s) r) ↔
      (∃ body, req.payload = .parsed body) ∧
        (req.endpoint = some (.lesson none) → cfg.requestLimit ≤ counter m req.arrival) ∧
        ∀ e ∈ p.journal V s, ¬ LookupRejected e := by
  intro p
  cases hp : req.payload with
  | refused status =>
    -- the error handler answers 500 to a body that is at fault
    have happ : p = errorHandler := by
      rw [show p = (createApp P cfg mode req ⟨m, []⟩).2 from rfl, createApp_refused P cfg mode hp]
    rw [happ]
    refine iff_of_false (fun h => ?_) fun h => ?_
    · exact not_blamesRight_errorHandler (h _ (List.mem_singleton_self _))
    · obtain ⟨⟨body, hbody⟩, -⟩ := h
      cases hbody
  | parsed body =>
    by_cases hpath : req.endpoint = some (.lesson none) → cfg.requestLimit ≤ counter m req.arrival
    · obtain ⟨o, hsent, hconcluded⟩ := (concludes_createApp hp hpath mode).exec V s
      rw [hsent]
      cases o with
      | none => exact iff_of_true (by simp) ⟨⟨body, rfl⟩, hpath, hconcluded⟩
      | some r =>
        constructor
        · exact fun h => ⟨⟨body, rfl⟩, hpath, hconcluded.mp (h r (by simp))⟩
        · rintro ⟨-, -, h⟩ r' hr'
          obtain rfl : r' = r := by simpa using hr'
          exact hconcluded.mpr h
    · refine iff_of_false (fun h => ?_) fun h => hpath h.2.1
      rw [Classical.not_imp, not_le] at hpath
      -- a path that cannot be decoded goes to the error handler
      have hm : req.method ≠ .options := by
        intro hm
        have he := hpath.1
        unfold Request.endpoint at he
        rw [hm] at he
        cases he
      have happ : p = errorHandler := by
        rw [show p = (createApp P cfg mode req ⟨m, []⟩).2 from rfl,
          createApp_parsed P cfg mode hm hp]
        dsimp only
        rw [if_pos hpath.2, routers, hpath.1]
      rw [happ] at h
      exact not_blamesRight_errorHandler (h _ (List.mem_singleton_self _))

/-- A store whose database cannot be reached: every call rejects. -/
def unreachableStore : Store Unit where
  Handle _ := Unit
  perform _ s := ((), s)
  view _ _ _ := .error (.rejected "connection closed")

theorem componentFailed_unreachableStore (p : Handler) :
    ∀ e ∈ p.journal unreachableStore (), ComponentFailed e := by
  induction p with
  | done a => exact fun e he => absurd he List.not_mem_nil
  | fail f => exact fun e he => absurd he List.not_mem_nil
  | emit o p ih => exact ih
  | call c k ih =>
    intro e he
    rcases List.mem_cons.mp he with rfl | hlater
    · exact trivial
    · exact ih _ e hlater

/-- A request with a valid token, while the database cannot be reached, is told that its token is
invalid. -/
theorem unreachable_store_blames_token :
    let req := plainRequest .get ["api", "progress"] (plainBearer "u_1" "ada@example.com" 0)
      (.obj []) ""
    let p := (createApp plainPlatform plainConfig "mongo" req ⟨.empty, []⟩).2
    ¬ ∀ r ∈ (p.exec unreachableStore ()).sent,
      BlamesRight plainPlatform plainConfig req .empty (p.journal unreachableStore ()) r := by
  intro req p h
  have hsent : (p.exec unreachableStore ()).sent = [⟨401, .error "Invalid token"⟩] := by decide
  have hcalled : 0 < (p.journal unreachableStore ()).length := by decide
  obtain ⟨e, he⟩ := List.exists_mem_of_length_pos hcalled
  rw [hsent] at h
  have hserver := (h _ (List.mem_singleton_self _)).1.mpr
    ⟨e, he, componentFailed_unreachableStore p e he⟩
  exact absurd hserver (by decide)

end LanguageGuru
