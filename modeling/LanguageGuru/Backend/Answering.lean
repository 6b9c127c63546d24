import LanguageGuru.Backend.App
import LanguageGuru.Backend.PlainPlatform

/-!
# Requests are answered

Express ignores the promise of an asynchronous handler, so a handler that fails after its first
`await` sends nothing. A request to a route is answered exactly once unless the route's handler
gets such a failure: a store call that rejects, or a role update that finds no user.

## Main definitions

* `RouteCallRejects`, `RoleUpdateMissed`: the two kinds of answers that leave a request unanswered

## Main results

* `answered_once_iff`: a request to a route is answered exactly once, with every rejection turned
  into the error handler's response, if and only if no such answer occurs
-/

namespace LanguageGuru

open Process

/-- A store call of a route handler, which is any call but the lookup of the authentication
middleware, rejects. -/
def RouteCallRejects (e : Σ c : StoreCall, Except Failure (Answer c)) : Prop :=
  (∀ id, e.1 ≠ .findUserById id) ∧ ∃ failure, e.2 = .error failure

/-- A role update fulfils with `null`. -/
def RoleUpdateMissed (e : Σ c : StoreCall, Except Failure (Answer c)) : Prop :=
  ∃ id role, e = ⟨.updateUserRole id role, .ok none⟩

/-- An answer after which a handler fails. -/
def Unanswerable (e : Σ c : StoreCall, Except Failure (Answer c)) : Prop :=
  RouteCallRejects e ∨ RoleUpdateMissed e

theorem unanswerable_error {c : StoreCall} (hc : ∀ id, c ≠ .findUserById id) (f : Failure) :
    Unanswerable ⟨c, .error f⟩ := .inl ⟨hc, f, rfl⟩

theorem not_unanswerable_ok {c : StoreCall} (hc : ∀ id role, c ≠ .updateUserRole id role)
    (a : Answer c) : ¬ Unanswerable ⟨c, .ok a⟩ := by
  rintro (⟨-, f, hf⟩ | ⟨id, role, he⟩)
  · cases hf
  · exact hc id role (congrArg Sigma.fst he)

/-- A handler that answers exactly once unless it gets an answer after which it fails. -/
abbrev Answers (p : Handler) : Prop := p.AnswersUnless Unanswerable

theorem answers_sendJson (status : ℕ) (body : Body) : Answers (sendJson status body) := ⟨(), rfl⟩

/-- An awaited store call in a route handler, other than a role update. -/
theorem answers_await {c : StoreCall} (hc : ∀ id, c ≠ .findUserById id)
    (hu : ∀ id role, c ≠ .updateUserRole id role) {f : Answer c → Handler}
    (hf : ∀ a, Answers (f a)) : Answers (awaitStore c >>= f) := by
  rw [Program.await_bind]
  rintro (failure | a)
  · exact ⟨fun _ => ⟨failure, rfl⟩, fun hn => absurd (unanswerable_error hc failure) hn⟩
  · exact ⟨fun hb => absurd hb (not_unanswerable_ok hu a), fun _ => hf a⟩

/-- An awaited role update, after which the handler fails when there is no user. -/
theorem answers_await_updateUserRole {id role : String} {f : Option User → Handler}
    (hnone : ∃ e, f none = .fail e) (hf : ∀ u, Answers (f (some u))) :
    Answers (awaitStore (.updateUserRole id role) >>= f) := by
  have hc : ∀ id', StoreCall.updateUserRole id role ≠ .findUserById id' := fun _ h => by cases h
  rw [Program.await_bind]
  rintro (failure | _ | u)
  · exact ⟨fun _ => ⟨failure, rfl⟩, fun hn => absurd (unanswerable_error hc failure) hn⟩
  · exact ⟨fun _ => hnone, fun hn => absurd (.inr ⟨id, role, rfl⟩) hn⟩
  · refine ⟨fun hb => ?_, fun _ => hf u⟩
    rcases hb with ⟨-, failure, he⟩ | ⟨id', role', he⟩
    · cases he
    · simp at he

section Routes

variable (P : Platform) (cfg : Config) (req : Request)

theorem answers_register (body : Json) : Answers (register P cfg req body) := by
  unfold register
  split
  · exact answers_sendJson _ _
  · refine answers_await (by simp) (by simp) fun existing => ?_
    cases existing with
    | some u => exact answers_sendJson _ _
    | none => exact answers_await (by simp) (by simp) fun u => answers_sendJson _ _

theorem answers_loginFound (value : LoginValue) (found : Option User) :
    Answers (loginFound P cfg req value found) := by
  cases found with
  | none => exact answers_sendJson _ _
  | some user =>
    unfold loginFound
    dsimp only
    split
    · exact answers_sendJson _ _
    · split
      · apply answers_await_updateUserRole
        · exact ⟨_, rfl⟩
        · exact fun u => answers_sendJson _ _
      · exact answers_sendJson _ _

theorem answers_login (body : Json) : Answers (login P cfg req body) := by
  unfold login
  split
  · exact answers_sendJson _ _
  · exact answers_await (by simp) (by simp) fun found => answers_loginFound P cfg req _ found

/-- The authentication middleware answers when the handler behind it does. -/
theorem answers_authMiddleware {next : User → Handler} (hnext : ∀ u, Answers (next u)) :
    Answers (authMiddleware P cfg req next) := by
  have hauthenticated : ∀ r, Answers (authenticated next r) := by
    rintro (e | _ | u)
    · exact answers_sendJson _ _
    · exact answers_sendJson _ _
    · exact hnext u
  unfold authMiddleware
  split
  · exact answers_sendJson _ _
  · rename_i token _
    split_ifs
    · exact answers_sendJson _ _
    · unfold authenticate
      split
      · rename_i decoded _
        -- the lookup of the middleware is caught, whatever its answer
        have hclean : ∀ r, ¬ Unanswerable ⟨.findUserById decoded.sub, r⟩ := by
          rintro r (⟨h, -⟩ | ⟨id, role, he⟩)
          · exact h _ rfl
          · cases he
        rintro (e | a)
        · exact ⟨fun hb => absurd hb (hclean _), fun _ => hauthenticated (.error e)⟩
        · exact ⟨fun hb => absurd hb (hclean _), fun _ => hauthenticated (.ok a)⟩
      · exact hauthenticated (.error (.thrown "invalid token"))

theorem answers_postProgress (body : Json) (user : User) :
    Answers (postProgress P req body user) := by
  unfold postProgress
  split
  · exact answers_sendJson _ _
  · refine answers_await (by simp) (by simp) fun lesson => ?_
    cases lesson with
    | none => exact answers_sendJson _ _
    | some l =>
      exact answers_await (by simp) (by simp) fun _ =>
        answers_await (by simp) (by simp) fun _ => answers_sendJson _ _

theorem answers_lessonById (id : String) (user : User) : Answers (lessonById id user) := by
  unfold lessonById
  refine answers_await (by simp) (by simp) fun lesson => ?_
  cases lesson with
  | none => exact answers_sendJson _ _
  | some l => exact answers_await (by simp) (by simp) fun _ => answers_sendJson _ _

/-- Every route answers unless a call gets an answer after which its handler fails. -/
theorem answers_routers (mode : String) (body : Json) :
    Answers (routers P cfg mode req body) := by
  unfold routers
  split
  · exact answers_sendJson _ _
  · exact answers_sendJson _ _
  · refine answers_await (by simp) (by simp) fun ready => ?_
    split_ifs <;> exact answers_sendJson _ _
  · exact answers_register P cfg req body
  · exact answers_login P cfg req body
  · exact answers_authMiddleware P cfg req fun u =>
      answers_await (by simp) (by simp) fun _ =>
        answers_await (by simp) (by simp) fun _ => answers_sendJson _ _
  · exact answers_authMiddleware P cfg req fun u =>
      answers_await (by simp) (by simp) fun _ =>
        answers_await (by simp) (by simp) fun _ => answers_sendJson _ _
  · exact answers_authMiddleware P cfg req fun u => answers_lessonById _ u
  · exact answers_sendJson _ _
  · exact answers_authMiddleware P cfg req fun u => answers_postProgress P req body u
  · exact answers_authMiddleware P cfg req fun u =>
      answers_await (by simp) (by simp) fun _ => answers_sendJson _ _

end Routes

/-- The application answers every request unless a call gets an answer after which the route's
handler fails. -/
theorem answers_createApp (P : Platform) (cfg : Config) (mode : String) (req : Request)
    (x : Exchange) : Answers (createApp P cfg mode req x).2 := by
  unfold createApp
  split
  · exact answers_routers P cfg req mode req.body
  · exact answers_sendJson _ _
  · exact answers_sendJson _ _

/-- **A request is answered exactly once, and a rejected store call of its route handler by the
error handler, if and only if the handler gets no answer after which it fails**: no store call of
the handler rejects, and no role update finds no user. The store and its state are arbitrary, so
every call may fulfil or reject in any way. -/
theorem answered_once_iff (P : Platform) (cfg : Config) (mode : String) {S : Type} (V : Store S)
    (req : Request) (x : Exchange) (s : S) :
    let p := (createApp P cfg mode req x).2
    ((p.exec V s).sent.length = 1 ∧
        ((∃ e ∈ p.journal V s, RouteCallRejects e) →
          (p.exec V s).sent = [⟨500, .error "Internal Server Error"⟩])) ↔
      ∀ e ∈ p.journal V s, ¬ RouteCallRejects e ∧ ¬ RoleUpdateMissed e := by
  intro p
  obtain ⟨hclean, hbad⟩ := (answers_createApp P cfg mode req x).exec V s
  constructor
  · rintro ⟨hone, -⟩ e he
    have hgood : ¬ Unanswerable e := fun h => by
      rw [hbad ⟨e, he, h⟩] at hone
      cases hone
    exact ⟨fun h => hgood (.inl h), fun h => hgood (.inr h)⟩
  · intro h
    refine ⟨hclean fun e he => ?_, fun ⟨e, he, hr⟩ => absurd hr (h e he).1⟩
    rintro (hr | hm)
    · exact (h e he).1 hr
    · exact (h e he).2 hm

/-- A store whose unique index refuses every new user, as it does when a concurrent registration
of the same email won. -/
def refusingStore : Store Unit where
  Handle c := Except Failure (Answer c)
  perform
    | .ready, s => (.ok true, s)
    | .findUserByEmail _, s => (.ok none, s)
    | .findUserById _, s => (.ok none, s)
    | .createUser _ _ _, s => (.error (.rejected "E11000 duplicate key error"), s)
    | .updateUserRole _ _, s => (.ok none, s)
    | .getLessons _, s => (.ok [], s)
    | .getLessonById _, s => (.ok none, s)
    | .getProgressForUser _, s => (.ok [], s)
    | .upsertProgress _ _, s => (.error (.rejected "no such user"), s)
  view _ h _ := h

/-- A registration that loses the race for its email is never answered. -/
theorem refused_registration_unanswered :
    let req := plainRegistration "ada" "ada@example.com" "secret1" "u_1"
    let p := (createApp plainPlatform plainConfig "mongo" req ⟨.empty, []⟩).2
    ¬ ((p.exec refusingStore ()).sent.length = 1 ∧
      ((∃ e ∈ p.journal refusingStore (), RouteCallRejects e) →
        (p.exec refusingStore ()).sent = [⟨500, .error "Internal Server Error"⟩])) := by
  rintro req p ⟨hone, -⟩
  have hsent : (p.exec refusingStore ()).sent = [] := by decide
  rw [hsent] at hone
  cases hone

end LanguageGuru
