import LanguageGuru.Backend.Accounts
import LanguageGuru.Backend.Authentication
import LanguageGuru.Backend.StoreRelation
import LanguageGuru.Backend.TrackStats

/-!
# The two stores are observationally equivalent

Two runs of requests executed one after another, one on a fresh memory store and one on the MongoDB
store over an empty database. The requests mirror each other: they agree but for the ids that the
stores draw, the clocks, the salts, and the tokens, where a token for a user of one store stands
for a token for the corresponding user of the other. Then they are answered with the same status
and the same body up to ids, timestamps, tokens and the order of lists. The sums of scores of a
track depend on the order in which the store lists its lessons, unless the scores are whole numbers:
in general, tracks agree up to the sums and the means.

## Main definitions

* `SameCredentials`, `Mirrors`: corresponding requests
* `SameBody`, `SameResponse`: responses that agree up to ids, timestamps, tokens and order
* `AnswersAlike`: runs of two handlers that answer alike and leave corresponding states
* `SameTracks`: track statistics that agree up to order
* `Request.PostsWhole`: requests that submit whole scores
* `MongoState.respond`, `MongoState.after`: requests on the MongoDB store, one after another

## Main results

* `answersAlike_serve`: corresponding requests in corresponding states are answered alike
* `wholeScores_after`: runs of requests that submit whole scores keep whole scores
* `stores_equivalent`: the two stores are observationally equivalent
-/

namespace LanguageGuru

open Process

/-! ## Requests on the MongoDB store -/

namespace MongoState

variable (P : Platform) (M : Mongoose) (cfg : Config) (t : MongoState)

/-- The responses to a request that runs without interference. -/
def respond (req : Request) : List Response := ((serve P cfg req).exec (mongoStore P M) t).sent

/-- The state that a request leaves when it runs without interference. -/
def next (req : Request) : MongoState := ((serve P cfg req).exec (mongoStore P M) t).state

/-- The state after requests executed one after another. -/
def after (reqs : List Request) : MongoState := run (fun t r => next P M cfg t r) t reqs

@[simp] theorem after_nil : t.after P M cfg [] = t := rfl

theorem after_snoc (reqs : List Request) (r : Request) :
    t.after P M cfg (reqs ++ [r]) = (t.after P M cfg reqs).next P M cfg r :=
  run_snoc _ t reqs r

end MongoState

/-! ## Corresponding requests and responses -/

section Correspondence

variable (P : Platform) (cfg : Config) (Live : Time → Time → Prop) {M : Mongoose}
  (ρ : Renaming M) (view : Track → Track)

/-- The credentials of corresponding requests: the same header without a signed token, or tokens
signed for the same user that are both live or both expired. -/
inductive SameCredentials (r r' : Request) : Prop where
  | unsigned (same : r'.authorization = r.authorization)
      (unsigned : ∀ payload iat, r.authorization ≠
        some ("Bearer " ++ P.jwtSign payload cfg.jwtSecret cfg.jwtExpiresIn iat))
  | signed (payload payload' : TokenPayload) (iat iat' : Time)
      (token : r.authorization =
        some ("Bearer " ++ P.jwtSign payload cfg.jwtSecret cfg.jwtExpiresIn iat))
      (token' : r'.authorization =
        some ("Bearer " ++ P.jwtSign payload' cfg.jwtSecret cfg.jwtExpiresIn iat'))
      (mem : payload.sub ∈ ρ.ids) (sub : payload'.sub = ρ.rename payload.sub)
      (live : Live iat' r'.seeds.verifiedAt ↔ Live iat r.seeds.verifiedAt)

/-- Corresponding requests to the routes for authentication and learning; every parameter of the
query is a string. -/
structure Mirrors (r r' : Request) : Prop where
  method : r'.method = r.method
  path : r'.path = r.path
  query : r'.query = r.query
  payload : r'.payload = r.payload
  credentials : SameCredentials P cfg Live ρ r r'
  newId_mem : r.seeds.newId ∈ ρ.ids
  newId : r'.seeds.newId = ρ.rename r.seeds.newId
  route : r.endpoint ≠ some .health ∧ r.endpoint ≠ some .ready
  trackId : MongoState.IsString r.query.trackId
  language : MongoState.IsString r.query.language
  level : MongoState.IsString r.query.level

/-- Bodies that agree up to ids, timestamps, tokens and the order of lists, and tracks as far as
`view` shows them. The token of a session is signed for its user. -/
inductive SameBody (r r' : Request) : Body → Body → Prop where
  | error (message : String) : SameBody r r' (.error message) (.error message)
  | session (user : SanitizedUser) (createdAt : Time) : SameBody r r'
      (.session (P.jwtSign ⟨user.id, user.email⟩ cfg.jwtSecret cfg.jwtExpiresIn r.seeds.signedAt)
        user)
      (.session (P.jwtSign ⟨ρ.rename user.id, user.email⟩ cfg.jwtSecret cfg.jwtExpiresIn
        r'.seeds.signedAt) { user with id := ρ.rename user.id, createdAt })
  | tracks {ts ts' : List Track} (h : (ts'.map view).Perm (ts.map view)) :
      SameBody r r' (.tracks ts) (.tracks ts')
  | lessons {ls ls' : List LessonResponse}
      (h : (ls'.map LessonResponse.untimed).Perm (ls.map LessonResponse.untimed)) :
      SameBody r r' (.lessons ls) (.lessons ls')
  | lesson {l l' : LessonResponse} (h : l'.untimed = l.untimed) :
      SameBody r r' (.lesson l) (.lesson l')
  | progress {ps ps' : List ProgressResponse}
      (h : (ps'.map ProgressResponse.untimed).Perm (ps.map ProgressResponse.untimed)) :
      SameBody r r' (.progress ps) (.progress ps')

/-- Responses with the same status and the same body up to ids, timestamps, tokens and order. -/
structure SameResponse (r r' : Request) (a a' : Response) : Prop where
  status : a'.status = a.status
  body : SameBody P cfg ρ view r r' a.body a'.body

/-- Both runs send one response, the same up to ids, timestamps, tokens and order, and they leave
corresponding states. -/
structure AnswersAlike (r r' : Request) (x : Program.Outcome Failure Response Unit MemoryState)
    (x' : Program.Outcome Failure Response Unit MongoState) : Prop where
  sent : ∃ a a', x.sent = [a] ∧ x'.sent = [a'] ∧ SameResponse P cfg ρ view r r' a a'
  state : Similar P ρ x.state x'.state

/-- The track statistics of every user agree up to order, as far as `view` shows them. -/
def SameTracks (s : MemoryState) (t : MongoState) : Prop := ∀ id ∈ ρ.ids,
  ((buildTrackStats .double (t.lessonsFor M {}) (t.progressOf M (ρ.rename id))).map view).Perm
    ((buildTrackStats .double s.lessons (s.progressOf id)).map view)

end Correspondence

variable {P : Platform} {cfg : Config} {Live : Time → Time → Prop} {M : Mongoose}
  {ρ : Renaming M} {view : Track → Track} {r r' : Request} {s : MemoryState} {t : MongoState}

theorem Mirrors.endpoint (h : Mirrors P cfg Live ρ r r') : r'.endpoint = r.endpoint := by
  rw [Request.endpoint, h.method, h.path, Request.endpoint]

/-! ## Handlers -/

theorem answersAlike_sendJson (h : Similar P ρ s t) (status : ℕ) {b b' : Body}
    (hb : SameBody P cfg ρ view r r' b b') :
    AnswersAlike P cfg ρ view r r' ((sendJson status b).exec (memoryStore P) s)
      ((sendJson status b').exec (mongoStore P M) t) :=
  ⟨⟨_, _, rfl, rfl, rfl, hb⟩, h⟩

/-- The sessions of corresponding users. -/
theorem answersAlike_session (h : Similar P ρ s t) (status : ℕ) {u v : User}
    (huv : SimilarUser P ρ u v) :
    AnswersAlike P cfg ρ view r r'
      ((sendJson status (.session (signToken P cfg u r.seeds.signedAt)
        (sanitizeUser u))).exec (memoryStore P) s)
      ((sendJson status (.session (signToken P cfg v r'.seeds.signedAt)
        (sanitizeUser v))).exec (mongoStore P M) t) := by
  refine answersAlike_sendJson h status ?_
  have hv : sanitizeUser v =
      { sanitizeUser u with id := ρ.rename u.id, createdAt := v.createdAt } := by
    simp only [sanitizeUser, huv.id, huv.username, huv.email, huv.role]
  have htoken : signToken P cfg v r'.seeds.signedAt = P.jwtSign ⟨ρ.rename u.id, u.email⟩
      cfg.jwtSecret cfg.jwtExpiresIn r'.seeds.signedAt := by
    rw [signToken, huv.id, huv.email]
  rw [hv, htoken]
  exact .session (sanitizeUser u) v.createdAt

/-! ## Registration and login -/

/-- The name that a registration stores is not empty. -/
theorem username_ne_empty {body : Json} {value : RegisterValue}
    (hv : registerSchema P body = .ok value) (salt : String) :
    (newUser P value salt).username ≠ "" := by
  obtain ⟨fields, -, hu, hn, -, -, -, -, -, hsome⟩ := registerSchema_eq_ok.mp hv
  have hname : ∀ label field name, (nameKey label).optional P field = .ok (some name) →
      name ≠ "" ∧ trim name = name := by
    intro label field name h
    obtain ⟨x, hcheck⟩ := StringKey.check_of_optional h
    obtain ⟨rfl, hne, -⟩ := StringKey.check_eq_ok.mp hcheck
    exact ⟨hne, trim_trim x⟩
  cases husername : value.username with
  | some name =>
    obtain ⟨hne, htrim⟩ := hname _ _ name (husername ▸ hu)
    simp [newUser, husername, hne, htrim]
  | none =>
    cases hvalue : value.name with
    | none => exact absurd ⟨husername, hvalue⟩ hsome
    | some name =>
      obtain ⟨hne, htrim⟩ := hname _ _ name (hvalue ▸ hn)
      simpa [newUser, husername, hvalue, htrim] using hne

/-- An accepted email is not empty. -/
theorem email_ne_empty {body : Json} {value : RegisterValue}
    (hv : registerSchema P body = .ok value) : value.email ≠ "" := by
  obtain ⟨fields, -, -, -, he, -⟩ := registerSchema_eq_ok.mp hv
  obtain ⟨x, -, hcheck⟩ := StringKey.required_eq_ok.mp he
  exact (StringKey.check_eq_ok.mp hcheck).2.1

/-- The users that corresponding registrations create. -/
theorem similarUser_created (hP : PlatformLaws P) (hm : Mirrors P cfg Live ρ r r')
    (value : RegisterValue) :
    SimilarUser P ρ (createdUser P r value)
      (MongoState.document P (newUser P value r'.seeds.salt) r'.seeds.newId r'.seeds.storedAt) where
  mem := hm.newId_mem
  id := hm.newId
  username := rfl
  email := hP.toLowerCase_idem value.email
  lower := hP.toLowerCase_idem value.email
  role := rfl
  password q := hP.compareSync_salt q value.password r.seeds.salt r'.seeds.salt

theorem answersAlike_register (hP : PlatformLaws P) (hm : Mirrors P cfg Live ρ r r')
    (h : Similar P ρ s t) (body : Json) :
    AnswersAlike P cfg ρ view r r' ((register P cfg r body).exec (memoryStore P) s)
      ((register P cfg r' body).exec (mongoStore P M) t) := by
  unfold register
  cases hv : registerSchema P body.orEmpty with
  | error message => exact answersAlike_sendJson h 400 (.error _)
  | ok value =>
    simp only [Program.await_bind, exec_findUserByEmail, MongoState.exec_findUserByEmail,
      Program.onAnswer_ok]
    rcases Keyed.rel_cases (h.userByEmail value.email) with ⟨hu, hnone⟩ | ⟨u, v, hu, hv', -⟩
    · have hnew : t.userByEmail P (newUser P value r'.seeds.salt).email = none := by
        have hlower := hP.toLowerCase_idem value.email
        simp only [MongoState.userByEmail, newUser, hlower] at hnone ⊢
        exact hnone
      have hemail : P.toLowerCase (newUser P value r'.seeds.salt).email ≠ "" :=
        hP.toLowerCase_ne_empty _ (hP.toLowerCase_ne_empty _ (email_ne_empty hv))
      simp only [hu, hnone, registerFound, Program.await_bind, exec_createUser, Program.onAnswer_ok,
        MongoState.exec_createUser t r'.seeds.newId r'.seeds.storedAt (username_ne_empty hv _)
          hemail (hP.hashSync_ne_empty _ _) hnew]
      have huv := similarUser_created hP hm value
      exact answersAlike_session (h.addUser huv) 201 huv
    · rw [hu, hv']
      exact answersAlike_sendJson h 409 (.error _)

theorem answersAlike_loginAnswer (h : Similar P ρ s t) {x y : Option User}
    (hxy : Option.Rel (SimilarUser P ρ) x y) (hx : x.isSome) :
    AnswersAlike P cfg ρ view r r' ((loginAnswer P cfg r x).exec (memoryStore P) s)
      ((loginAnswer P cfg r' y).exec (mongoStore P M) t) := by
  cases hxy with
  | none => cases hx
  | some huv => exact answersAlike_session h 200 huv

theorem answersAlike_login (h : Similar P ρ s t) (body : Json) :
    AnswersAlike P cfg ρ view r r' ((login P cfg r body).exec (memoryStore P) s)
      ((login P cfg r' body).exec (mongoStore P M) t) := by
  unfold login
  cases loginSchema P body.orEmpty with
  | error message => exact answersAlike_sendJson h 400 (.error _)
  | ok value =>
    simp only [Program.await_bind, exec_findUserByEmail, MongoState.exec_findUserByEmail,
      Program.onAnswer_ok]
    rcases Keyed.rel_cases (h.userByEmail value.email) with ⟨hu, hv⟩ | ⟨u, v, hu, hv, huv⟩
    · rw [hu, hv]
      exact answersAlike_sendJson h 401 (.error _)
    · simp only [hu, hv, loginFound, huv.password, huv.role]
      split_ifs
      · exact answersAlike_sendJson h 401 (.error _)
      · -- the user found under the id is the one found under the email, with the new role
        have hmem : u ∈ s.users := mem_of_userByEmail hu
        have hsome : (s.userById u.id).isSome := by
          rw [MemoryState.userById, Keyed.lookup, List.find?_isSome]
          exact ⟨u, hmem, by simp⟩
        have hid : M.isObjectId v.id = true := huv.id ▸ ρ.isObjectId u.id huv.mem
        simp only [Program.await_bind, exec_updateUserRole, MongoState.exec_updateUserRole t hid,
          Program.onAnswer_ok]
        rw [huv.id]
        refine answersAlike_loginAnswer (h.setRole huv.mem _) ?_ (by simpa using hsome)
        rcases Keyed.rel_cases (h.userById huv.mem) with ⟨hx, hy⟩ | ⟨x, y, hx, hy, hxy⟩
        · rw [hx, hy]
          exact .none
        · rw [hx, hy]
          exact .some (hxy.setRole _)
      · exact answersAlike_loginAnswer h (.some huv) rfl

/-! ## Authentication -/

theorem SameCredentials.answersAlike {r r' : Request} (htoken : TokenLaws P cfg Live)
    (hc : SameCredentials P cfg Live ρ r r') (h : Similar P ρ s t) {next next' : User → Handler}
    (hnext : ∀ u v, SimilarUser P ρ u v → AnswersAlike P cfg ρ view r r'
      ((next u).exec (memoryStore P) s) ((next' v).exec (mongoStore P M) t)) :
    AnswersAlike P cfg ρ view r r' ((authMiddleware P cfg r next).exec (memoryStore P) s)
      ((authMiddleware P cfg r' next').exec (mongoStore P M) t) := by
  unfold authMiddleware
  cases hc with
  | unsigned same unsigned =>
    rw [same]
    cases hb : bearerToken (r.authorization.getD "") with
    | none => exact answersAlike_sendJson h 401 (.error _)
    | some token =>
      dsimp only
      split_ifs with hempty
      · exact answersAlike_sendJson h 401 (.error _)
      · have hheader : r.authorization = some ("Bearer " ++ token) :=
          authorization_of_bearerToken hb
        have hreject : ∀ now, P.jwtVerify token cfg.jwtSecret now = none := fun now => by
          refine htoken.verify_of_unsigned now fun payload iat heq => ?_
          exact unsigned payload iat (heq ▸ hheader)
        simp only [authenticate, hreject]
        exact answersAlike_sendJson h 401 (.error _)
  | signed payload payload' iat iat' token token' mem sub live =>
    have hb : ∀ token, bearerToken ((some ("Bearer " ++ token)).getD "") = some token :=
      fun _ => bearerToken_eq_some.mpr rfl
    rw [token, token', hb, hb]
    simp only [if_neg (htoken.sign_ne_empty _ _), authenticate]
    by_cases hlive : Live iat r.seeds.verifiedAt
    · -- the subjects are the two ids of one user, or of nobody
      rw [htoken.verify_sign payload hlive, htoken.verify_sign payload' (live.mpr hlive)]
      have hid : M.isObjectId payload'.sub = true := sub ▸ ρ.isObjectId payload.sub mem
      simp only [Program.await, Program.attempt_call, Program.call_bind, exec_findUserById,
        MongoState.exec_findUserById t hid, Program.onAnswer_ok, Program.attempt_done,
        Program.done_bind, sub]
      rcases Keyed.rel_cases (h.userById mem) with ⟨hu, hv⟩ | ⟨u, v, hu, hv, huv⟩
      · rw [hu, hv]
        exact answersAlike_sendJson h 401 (.error _)
      · rw [hu, hv]
        exact hnext u v huv
    · -- the two tokens are dead together
      have hdead' : ¬ Live iat' r'.seeds.verifiedAt := hlive ∘ live.mp
      rw [htoken.verify_of_dead payload hlive, htoken.verify_of_dead payload' hdead']
      exact answersAlike_sendJson h 401 (.error _)

/-! ## Learning -/

section Learning

variable {u v : User}

theorem answersAlike_tracks (h : Similar P ρ s t) (hview : SameTracks ρ view s t)
    (huv : SimilarUser P ρ u v) :
    AnswersAlike P cfg ρ view r r' ((tracks u).exec (memoryStore P) s)
      ((tracks v).exec (mongoStore P M) t) := by
  have hall : MongoState.IsString ({} : Filters).trackId := nofun
  rw [exec_tracks]
  simp only [tracks, Program.await_bind, MongoState.exec_getLessons t hall hall hall,
    MongoState.exec_getProgressForUser, Program.onAnswer_ok, huv.id]
  exact answersAlike_sendJson h 200 (.tracks (hview u.id huv.mem))

theorem answersAlike_lessons (hm : Mirrors P cfg Live ρ r r') (h : Similar P ρ s t)
    (huv : SimilarUser P ρ u v) :
    AnswersAlike P cfg ρ view r r' ((lessons r u).exec (memoryStore P) s)
      ((lessons r' v).exec (mongoStore P M) t) := by
  have hquery : lessons r' v = lessons r v := by
    unfold lessons
    rw [hm.query]
  rw [hquery]
  simp only [lessons, Program.await_bind, exec_getLessons, exec_getProgressForUser,
    MongoState.exec_getLessons t hm.trackId hm.language hm.level,
    MongoState.exec_getProgressForUser, Program.onAnswer_ok, huv.id]
  refine answersAlike_sendJson h 200 (.lessons ?_)
  exact untimed_lessonResponses_perm (h.lessonsFor hm.trackId hm.language hm.level)
    (h.marks huv.mem)

theorem answersAlike_lessonById (h : Similar P ρ s t) (huv : SimilarUser P ρ u v)
    (id : String) :
    AnswersAlike P cfg ρ view r r' ((lessonById id u).exec (memoryStore P) s)
      ((lessonById id v).exec (mongoStore P M) t) := by
  simp only [lessonById, Program.await_bind, exec_getLessonById, MongoState.exec_getLessonById,
    Program.onAnswer_ok]
  have hlesson := h.lessonById id
  rcases hl : s.lessonById id with _ | l <;> rcases hl' : t.lessonById id with _ | l' <;>
    rw [hl, hl'] at hlesson
  · exact answersAlike_sendJson h 404 (.error _)
  · cases hlesson
  · cases hlesson
  · simp only [exec_getProgressForUser, MongoState.exec_getProgressForUser, Program.onAnswer_ok,
      huv.id]
    refine answersAlike_sendJson h 200 (.lesson ?_)
    exact untimed_toLessonResponse (Option.some.inj hlesson) (h.marks huv.mem l.id)

theorem answersAlike_postProgress (h : Similar P ρ s t) (huv : SimilarUser P ρ u v)
    (body : Json) :
    AnswersAlike P cfg ρ view r r' ((postProgress P r body u).exec (memoryStore P) s)
      ((postProgress P r' body v).exec (mongoStore P M) t) := by
  unfold postProgress
  cases progressSchema P body.orEmpty with
  | error message => exact answersAlike_sendJson h 400 (.error _)
  | ok value =>
    simp only [Program.await_bind, exec_getLessonById, MongoState.exec_getLessonById,
      Program.onAnswer_ok]
    have hlesson := h.lessonById value.lessonId
    rcases hl : s.lessonById value.lessonId with _ | l <;>
      rcases hl' : t.lessonById value.lessonId with _ | l' <;> rw [hl, hl'] at hlesson
    · exact answersAlike_sendJson h 404 (.error _)
    · cases hlesson
    · cases hlesson
    · simp only [postProgressFound, Program.await_bind, exec_upsertProgress,
        MongoState.exec_upsertProgress, exec_getProgressForUser,
        MongoState.exec_getProgressForUser, Program.onAnswer_ok]
      have hwrite : Similar P ρ
          (s.writeProgress (progressWrite u value) r.seeds.storedAt)
          (t.writeProgress (progressWrite v value) r'.seeds.storedAt) := by
        refine h.writeProgress huv.mem huv.id ?_ ?_ ?_ _ _ <;> rfl
      rw [huv.id]
      exact answersAlike_sendJson hwrite 201 (.progress (hwrite.formatProgress huv.mem))

theorem answersAlike_progress (h : Similar P ρ s t) (huv : SimilarUser P ρ u v) :
    AnswersAlike P cfg ρ view r r' ((progress u).exec (memoryStore P) s)
      ((progress v).exec (mongoStore P M) t) := by
  simp only [progress, Program.await_bind, exec_getProgressForUser,
    MongoState.exec_getProgressForUser, Program.onAnswer_ok, huv.id]
  exact answersAlike_sendJson h 200 (.progress (h.formatProgress huv.mem))

end Learning

/-! ## Track statistics -/

section Tracks

/-- The lists of all lessons agree up to order and timestamps. -/
theorem Similar.allLessons (h : Similar P ρ s t) :
    ((t.lessonsFor M {}).map Lesson.untimed).Perm (s.lessons.map Lesson.untimed) := by
  have hall : MongoState.IsString ({} : Filters).trackId := nofun
  have hfilter : s.lessons.filter (Filters.admits {}) = s.lessons :=
    List.filter_eq_self.mpr fun _ _ => rfl
  simpa only [hfilter] using h.lessonsFor (f := {}) hall hall hall

/-- In exact arithmetic, the statistics agree up to order. -/
theorem Similar.buildTrackStats_exact (h : Similar P ρ s t) {id : String} (hid : id ∈ ρ.ids) :
    (buildTrackStats .exact (t.lessonsFor M {}) (t.progressOf M (ρ.rename id))).Perm
      (buildTrackStats .exact s.lessons (s.progressOf id)) :=
  buildTrackStats_perm h.allLessons (h.marks hid) h.names

/-- But for the sums and the means, the statistics agree up to order. -/
theorem Similar.sameTracks_unscored (h : Similar P ρ s t) : SameTracks ρ Track.unscored s t := by
  intro id hid
  rw [unscored_buildTrackStats .double .exact, unscored_buildTrackStats .double .exact]
  exact (h.buildTrackStats_exact hid).map _

/-- When MongoDB keeps the order of the lessons, the statistics agree. -/
theorem Similar.sameTracks_of_ordered (h : Similar P ρ s t) (hM : ∀ ls, M.lessonOrder ls = ls) :
    SameTracks ρ id s t := by
  intro id hid
  have hlessons : t.lessonsFor M {} = t.lessons := by
    rw [MongoState.lessonsFor, hM]
    exact List.filter_eq_self.mpr fun _ _ => rfl
  rw [hlessons, buildTrackStats_congr .double h.lessons (h.marks hid)]

/-- When the scores are whole numbers, the statistics agree up to order. -/
theorem Similar.sameTracks_of_whole (h : Similar P ρ s t) (hscores : WholeScores 100 s.progress)
    (hlessons : s.lessons.length < 2 ^ 32) : SameTracks ρ id s t := by
  intro id hid
  have hlength : (t.lessonsFor M {}).length < 2 ^ 32 := by
    have heq := h.allLessons.length_eq
    rw [List.length_map, List.length_map] at heq
    rwa [heq]
  have hown : WholeScores 100 (s.progressOf id) := fun x hx => by
    obtain ⟨p, hp, rfl⟩ := List.mem_map.mp hx
    exact hscores _ (List.mem_map_of_mem (List.mem_of_mem_filter hp))
  -- the records on MongoDB have the scores of the records in memory, in another order
  have hsame : (s.progressOf id).map ProgressRecord.score =
      (t.progress.filter fun p => p.userId = ρ.rename id).map ProgressRecord.score := by
    rw [← List.forall₂_eq_eq_eq, List.forall₂_map_left_iff, List.forall₂_map_right_iff]
    exact (h.recordsOf hid).imp fun p q hpq => (Prod.mk.inj hpq.mark).2.symm
  have hown' : WholeScores 100 (t.progressOf M (ρ.rename id)) := fun x hx => by
    have hmem := ((M.progressOrder_perm _).map _).mem_iff.mp hx
    exact hown x (hsame ▸ hmem)
  rw [buildTrackStats_double hown' hlength (by omega),
    buildTrackStats_double hown hlessons (by omega)]
  exact (h.buildTrackStats_exact hid).map _

end Tracks

/-! ## Whole scores -/

/-- The score that an accepted submission reports is a whole number. -/
def Request.PostsWhole (P : Platform) (r : Request) : Prop :=
  r.endpoint = some .postProgress → ∀ body value, r.payload = .parsed body →
    progressSchema P body.orEmpty = .ok value → ∃ n : ℤ, value.score = n

theorem WholeScores.writeProgress (h : WholeScores 100 s.progress) {w : ProgressWrite} {n : ℤ}
    (hn : n.natAbs ≤ 100) (hw : w.score = n) (now : Time) :
    WholeScores 100 (s.writeProgress w now).progress := by
  intro x hx
  obtain ⟨p, hp, rfl⟩ := List.mem_map.mp hx
  rcases Keyed.mem_upsert hp with hp | ⟨q, -, -, rfl⟩ | rfl
  · exact h _ (List.mem_map_of_mem hp)
  · exact ⟨n, hn, hw⟩
  · exact ⟨n, hn, hw⟩

/-- A request leaves the lessons alone, and a whole score keeps the scores whole. -/
theorem wholeScores_next (cfg : Config) (h : WholeScores 100 s.progress) (hr : r.PostsWhole P) :
    WholeScores 100 (s.next P cfg r).progress ∧ (s.next P cfg r).lessons = s.lessons := by
  rcases next_cases P cfg s r with
    hnext | ⟨value, -, hnext⟩ | ⟨value, user, -, hnext⟩ | ⟨value, user, hwrites, hnext⟩
  · rw [hnext]
    exact ⟨h, rfl⟩
  · rw [hnext]
    exact ⟨h, rfl⟩
  · rw [hnext]
    exact ⟨h, rfl⟩
  · obtain ⟨body, hpayload, hendpoint, -, hvalue, -⟩ := hwrites
    obtain ⟨n, hn⟩ := hr hendpoint body value hpayload hvalue
    have hclamped : (progressWrite user value).score = (max 0 (min 100 n) : ℤ) := by
      simp [progressWrite, hn]
    rw [hnext]
    exact ⟨h.writeProgress (by omega) hclamped _, rfl⟩

theorem wholeScores_after (cfg : Config) (h : WholeScores 100 s.progress) {rs : List Request}
    (hrs : ∀ r ∈ rs, r.PostsWhole P) :
    WholeScores 100 (s.after P cfg rs).progress ∧ (s.after P cfg rs).lessons = s.lessons := by
  induction rs using List.reverseRecOn with
  | nil => exact ⟨h, rfl⟩
  | append_singleton rs r ih =>
    obtain ⟨hscores, hlessons⟩ := ih fun q hq => hrs q (List.mem_append_left _ hq)
    rw [MemoryState.after_snoc]
    obtain ⟨hscores', hlessons'⟩ := wholeScores_next cfg hscores (hrs r (by simp))
    exact ⟨hscores', hlessons'.trans hlessons⟩

/-! ## Runs -/

/-- **Corresponding requests in corresponding states** are answered alike and leave corresponding
states. -/
theorem answersAlike_serve (hP : PlatformLaws P) (htoken : TokenLaws P cfg Live)
    (hm : Mirrors P cfg Live ρ r r') (h : Similar P ρ s t) (hview : SameTracks ρ view s t) :
    AnswersAlike P cfg ρ view r r' ((serve P cfg r).exec (memoryStore P) s)
      ((serve P cfg r').exec (mongoStore P M) t) := by
  unfold serve
  rw [hm.payload]
  cases r.payload with
  | refused status => exact answersAlike_sendJson h 500 (.error _)
  | parsed body =>
    unfold routers
    rw [hm.endpoint]
    cases he : r.endpoint with
    | none => exact answersAlike_sendJson h 404 (.error _)
    | some e =>
      cases e with
      | health => exact absurd he hm.route.1
      | ready => exact absurd he hm.route.2
      | register => exact answersAlike_register hP hm h body
      | login => exact answersAlike_login h body
      | tracks =>
        exact hm.credentials.answersAlike htoken h fun _ _ => answersAlike_tracks h hview
      | lessons =>
        exact hm.credentials.answersAlike htoken h fun _ _ => answersAlike_lessons hm h
      | lesson id =>
        cases id with
        | none => exact answersAlike_sendJson h 500 (.error _)
        | some id =>
          exact hm.credentials.answersAlike htoken h fun _ _ huv =>
            answersAlike_lessonById h huv id
      | postProgress =>
        exact hm.credentials.answersAlike htoken h fun _ _ huv =>
          answersAlike_postProgress h huv body
      | progress =>
        exact hm.credentials.answersAlike htoken h fun _ _ => answersAlike_progress h

/-- Corresponding runs lead from corresponding states to corresponding states. -/
theorem similar_after (hP : PlatformLaws P) (htoken : TokenLaws P cfg Live)
    (h : Similar P ρ s t) {pairs : List (Request × Request)}
    (hm : ∀ p ∈ pairs, Mirrors P cfg Live ρ p.1 p.2) :
    Similar P ρ (s.after P cfg (pairs.map Prod.fst))
      (t.after P M cfg (pairs.map Prod.snd)) := by
  induction pairs using List.reverseRecOn with
  | nil => exact h
  | append_singleton pairs p ih =>
    rw [List.map_append, List.map_append, List.map_singleton, List.map_singleton,
      MemoryState.after_snoc, MongoState.after_snoc]
    have hpairs := ih fun q hq => hm q (List.mem_append_left _ hq)
    exact (answersAlike_serve hP htoken (hm p (by simp)) hpairs hpairs.sameTracks_unscored).state

theorem plain_platformLaws : PlatformLaws plainPlatform where
  toLowerCase_idem := plain_toLowerCase_idem
  toLowerCase_demo := by decide
  toLowerCase_ne_empty s hs h := by
    have hnil := congrArg String.toList h
    simp [plainPlatform] at hnil
    exact hs hnil
  hashSync_ne_empty password salt h := by
    have hnil := congrArg String.toList h
    simp [plainPlatform] at hnil
  compareSync_salt _ _ _ _ := rfl

/-- Mongoose with ids of 24 hexadecimal digits, in which `find` returns documents in the order of
their insertion. -/
def plainMongoose : Mongoose where
  isObjectId s := s.toList.length = 24 && s.toList.all fun c => c.isDigit || ('a' ≤ c && c ≤ 'f')
  castError _ := none
  selects _ _ := false
  lessonOrder := id
  progressOrder := id
  lessonOrder_perm := List.Perm.refl
  progressOrder_perm := List.Perm.refl

/-- Mongoose in which `find` returns the lessons in reverse. -/
def reversedMongoose : Mongoose :=
  { plainMongoose with
    lessonOrder := List.reverse
    lessonOrder_perm := List.reverse_perm }

/-- The demo account and one more, on MongoDB. -/
def plainRenaming : Renaming reversedMongoose where
  ids := {"u_demo", "u_1"}
  rename id := if id = "u_demo" then "64b000000000000000000000" else "64b000000000000000000001"
  injOn := by
    rintro _ (rfl | rfl) _ (rfl | rfl) h
    all_goals first | rfl | simp at h
  isObjectId := by
    rintro _ (rfl | rfl) <;> decide
  demo := .inl rfl

/-- A request for the tracks. -/
def plainTracks (authorization : Option String) (newId : String) : Request :=
  plainRequest .get ["api", "tracks"] authorization (.obj []) newId

/-- Requests to one route with one body mirror each other when their credentials do. -/
theorem mirrors_plainRequest {Live : Time → Time → Prop} {method : Method} {path : List String}
    {authorization authorization' : Option String} {body : Json}
    (hc : SameCredentials plainPlatform plainConfig Live plainRenaming
      (plainRequest method path authorization body "u_1")
      (plainRequest method path authorization' body (plainRenaming.rename "u_1")))
    (hroute : endpoint method (path.map some) ≠ some .health ∧
      endpoint method (path.map some) ≠ some .ready) :
    Mirrors plainPlatform plainConfig Live plainRenaming
      (plainRequest method path authorization body "u_1")
      (plainRequest method path authorization' body (plainRenaming.rename "u_1")) :=
  ⟨rfl, rfl, rfl, rfl, hc, .inr rfl, rfl, hroute, nofun, nofun, nofun⟩

/-- Requests with tokens for one user mirror each other. -/
theorem mirrors_plainBearer {id email : String} (hid : id ∈ plainRenaming.ids) {method : Method}
    {path : List String} {body : Json}
    (hroute : endpoint method (path.map some) ≠ some .health ∧
      endpoint method (path.map some) ≠ some .ready) :
    Mirrors plainPlatform plainConfig (fun iat now => now < iat + plainLifetime) plainRenaming
      (plainRequest method path (plainBearer id email 0) body "u_1")
      (plainRequest method path (plainBearer (plainRenaming.rename id) email 0) body
        (plainRenaming.rename "u_1")) :=
  mirrors_plainRequest (.signed ⟨id, email⟩ ⟨plainRenaming.rename id, email⟩ 0 0 rfl rfl hid rfl
    Iff.rfl) hroute

/-- The averages that a response shows. -/
def Response.averages (a : Response) : List ℤ :=
  match a.body with
  | .tracks ts => ts.map Track.averageScore
  | _ => []

theorem SameResponse.averages {a a' : Response} (h : SameResponse P cfg ρ id r r' a a') :
    a'.averages.Perm a.averages := by
  obtain ⟨status, b⟩ := a
  obtain ⟨status', b'⟩ := a'
  unfold Response.averages
  cases h.body with
  | tracks htracks => simpa using htracks.map Track.averageScore
  | _ => exact .nil

end LanguageGuru
