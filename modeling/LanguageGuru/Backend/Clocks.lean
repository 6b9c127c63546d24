import LanguageGuru.Backend.Authentication
import LanguageGuru.Backend.Presentation

/-!
# Runs at other moments

The clocks and the random generators that a run reads show in the timestamps, the salts and the
tokens of its responses, and nowhere else: when a run is repeated at other moments with the same
ids, every learning request of a user is answered alike up to timestamps.

## Main definitions

* `Request.Retimes`: a request is another one at another moment
* `SameContents`: memory states that agree up to timestamps, roles and password hashes
* `Response.untimed`: a response without timestamps

## Main results

* `SameContents.next`: requests at other moments keep the contents the same
* `untimed_respond`: a learning request with a subject is answered alike up to timestamps
-/

namespace LanguageGuru

open Process List

/-! ## Responses without timestamps -/

def Body.untimed : Body → Body
  | .health env datastore _ _ => .health env datastore 0 0
  | .session token user => .session token { user with createdAt := 0 }
  | .lessons ls => .lessons (ls.map LessonResponse.untimed)
  | .lesson l => .lesson l.untimed
  | .progress ps => .progress (ps.map ProgressResponse.untimed)
  | body => body

def Response.untimed (r : Response) : Response := ⟨r.status, r.body.untimed⟩

/-! ## Requests and states -/

section Relations

variable (P : Platform) (cfg : Config)

/-- `r'` is the request `r` at another moment: its clocks, its salt and its token may differ, but
the token stands for the same subject, and the same id is drawn. -/
structure Request.Retimes (r r' : Request) : Prop where
  method : r'.method = r.method
  path : r'.path = r.path
  query : r'.query = r.query
  payload : r'.payload = r.payload
  newId : r'.seeds.newId = r.seeds.newId
  subject : r'.subject P cfg = r.subject P cfg

/-- The id and the email of a user. -/
def User.identity (u : User) : String × String := (u.id, u.email)

/-- The progress records agree up to the time of the write. -/
structure SameMark (p p' : ProgressRecord) : Prop where
  key : p'.key = p.key
  mark : p'.mark = p.mark

/-- The states agree up to timestamps, roles and password hashes. -/
structure SameContents (s s' : MemoryState) : Prop where
  users : s'.users.map User.identity = s.users.map User.identity
  lessons : s'.lessons.map Lesson.untimed = s.lessons.map Lesson.untimed
  progress : Forall₂ SameMark s.progress s'.progress

end Relations

variable {P : Platform} {cfg : Config} {r r' : Request} {s s' : MemoryState}

theorem Request.Retimes.endpoint (h : r.Retimes P cfg r') : r'.endpoint = r.endpoint := by
  rw [Request.endpoint, h.method, h.path, Request.endpoint]

theorem SameMark.lessonId {p p' : ProgressRecord} (h : SameMark p p') :
    p'.lessonId = p.lessonId := congrArg Prod.snd h.key

theorem SameMark.userId {p p' : ProgressRecord} (h : SameMark p p') : p'.userId = p.userId :=
  congrArg Prod.fst h.key

/-! ## Reading -/

namespace SameContents

/-- The same email leads to a user with the same identity. -/
theorem userByEmail (h : SameContents s s') (email : String) :
    (s'.userByEmail P email).map User.identity = (s.userByEmail P email).map User.identity := by
  have hfind : ∀ us : List User,
      (us.find? fun u => P.toLowerCase u.email = P.toLowerCase email).map User.identity =
        (us.map User.identity).find? fun i => P.toLowerCase i.2 = P.toLowerCase email :=
    fun us => by
      rw [find?_map]
      rfl
  rw [MemoryState.userByEmail, MemoryState.userByEmail, hfind, hfind, h.users]

/-- The same id leads to a user with the same identity. -/
theorem userById (h : SameContents s s') (id : String) :
    (s'.userById id).map User.identity = (s.userById id).map User.identity := by
  have hfind : ∀ us : List User, (us.find? fun u => u.id = id).map User.identity =
      (us.map User.identity).find? fun i => i.1 = id := fun us => by
    rw [find?_map]
    rfl
  rw [MemoryState.userById, MemoryState.userById, Keyed.lookup, Keyed.lookup, hfind, hfind,
    h.users]

theorem lessonById (h : SameContents s s') (id : String) :
    (s'.lessonById id).map Lesson.untimed = (s.lessonById id).map Lesson.untimed := by
  have hfind : ∀ ls : List Lesson, (ls.find? fun l => l.id = id).map Lesson.untimed =
      (ls.map Lesson.untimed).find? fun l => l.id = id := fun ls => by
    rw [find?_map]
    rfl
  rw [MemoryState.lessonById, MemoryState.lessonById, hfind, hfind, h.lessons]

theorem progressOf (h : SameContents s s') (userId : String) :
    Forall₂ SameMark (s.progressOf userId) (s'.progressOf userId) :=
  rel_filter (fun p p' hp => by simp only [hp.userId]) h.progress

/-- The progress maps of a user show the same marks. -/
theorem marks (h : SameContents s s') (userId lessonId : String) :
    ((progressMap (s'.progressOf userId)).get lessonId).map ProgressRecord.mark =
      ((progressMap (s.progressOf userId)).get lessonId).map ProgressRecord.mark := by
  rw [get_progressMap_eq_last, get_progressMap_eq_last]
  have hlast : Option.Rel SameMark
      (Keyed.lookup ProgressRecord.lessonId lessonId (s.progressOf userId).reverse)
      (Keyed.lookup ProgressRecord.lessonId lessonId (s'.progressOf userId).reverse) :=
    Keyed.rel_lookup (fun p p' hp => by rw [hp.lessonId]) (rel_reverse (h.progressOf userId))
  rcases Keyed.rel_cases hlast with ⟨hx, hy⟩ | ⟨p, p', hx, hy, hp⟩
  · rw [hx, hy]
  · rw [hx, hy]
    exact congrArg some hp.mark

theorem formatProgress (h : SameContents s s') (userId : String) :
    (LanguageGuru.formatProgress (s'.progressOf userId)).map ProgressResponse.untimed =
      (LanguageGuru.formatProgress (s.progressOf userId)).map ProgressResponse.untimed := by
  have hsame : ∀ ps ps', Forall₂ SameMark ps ps' →
      (LanguageGuru.formatProgress ps').map ProgressResponse.untimed =
        (LanguageGuru.formatProgress ps).map ProgressResponse.untimed := by
    intro ps ps' hps
    induction hps with
    | nil => rfl
    | @cons p p' ps ps' hp _ ih =>
      obtain ⟨hcompleted, hscore⟩ := Prod.mk.inj hp.mark
      simp only [LanguageGuru.formatProgress, map_cons, cons.injEq] at ih ⊢
      exact ⟨by simp [ProgressResponse.untimed, hp.lessonId, hcompleted, hscore], ih⟩
  exact hsame _ _ (h.progressOf userId)

/-- The lessons that a query selects are presented alike. -/
theorem lessonResponses (h : SameContents s s') (f : Filters) (userId : String) :
    ((s'.lessons.filter f.admits).map fun l =>
        toLessonResponse l (progressMap (s'.progressOf userId))).map LessonResponse.untimed =
      ((s.lessons.filter f.admits).map fun l =>
        toLessonResponse l (progressMap (s.progressOf userId))).map LessonResponse.untimed := by
  have hpresent : ∀ t, SameContents s t →
      ((t.lessons.filter f.admits).map fun l =>
        toLessonResponse l (progressMap (t.progressOf userId))).map LessonResponse.untimed =
      ((t.lessons.map Lesson.untimed).filter f.admits).map fun l =>
        (toLessonResponse l (progressMap (s.progressOf userId))).untimed := by
    intro t ht
    rw [filter_map, map_map, map_map]
    refine map_congr_left fun l _ => ?_
    exact untimed_toLessonResponse rfl (ht.marks userId l.id)
  rw [hpresent s' h, h.lessons]
  refine (hpresent s ⟨rfl, rfl, forall₂_same.mpr fun _ _ => ⟨rfl, rfl⟩⟩).symm

/-! ## Writing -/

theorem addUser (h : SameContents s s') {u u' : User} (hu : u'.identity = u.identity) :
    SameContents (s.addUser u) (s'.addUser u') where
  users := by simp only [MemoryState.addUser, map_append, map_cons, map_nil, h.users, hu]
  lessons := h.lessons
  progress := h.progress

theorem writeProgress (h : SameContents s s') (w : ProgressWrite) (now now' : Time) :
    SameContents (s.writeProgress w now) (s'.writeProgress w now') where
  users := h.users
  lessons := h.lessons
  progress := by
    refine Keyed.rel_upsert (fun p p' hp => by rw [hp.key]) (fun p p' hp _ => ?_) ⟨rfl, rfl⟩
      h.progress
    exact ⟨hp.key, rfl⟩

end SameContents

/-- A change of a role leaves the identities alone. -/
theorem identity_setRole (s : MemoryState) (id role : String) :
    (s.setRole id role).users.map User.identity = s.users.map User.identity := by
  refine Keyed.map_update ?_ s.users
  exact fun _ _ => rfl

/-! ## Handlers -/

/-- Two runs sent the same up to timestamps, and left the same contents. -/
structure OutcomesAlike (o o' : Program.Outcome Failure Response Unit MemoryState) : Prop where
  sent : o'.sent.map Response.untimed = o.sent.map Response.untimed
  state : SameContents o.state o'.state

theorem SameContents.answer (h : SameContents s s') (status : ℕ) {b b' : Body}
    (hb : b'.untimed = b.untimed) :
    OutcomesAlike ⟨.ok (), [⟨status, b⟩], s⟩ ⟨.ok (), [⟨status, b'⟩], s'⟩ where
  sent := by simp [Response.untimed, hb]
  state := h

theorem sameContents_register (h : SameContents s s') (hr : r.Retimes P cfg r') (body : Json) :
    SameContents ((register P cfg r body).exec (memoryStore P) s).state
      ((register P cfg r' body).exec (memoryStore P) s').state := by
  rw [exec_register, exec_register]
  cases registerSchema P body.orEmpty with
  | error message => exact h
  | ok value =>
    have hfound := h.userByEmail (P := P) value.email
    dsimp only
    cases hu : s.userByEmail P value.email with
    | some u =>
      obtain ⟨u', hu', -⟩ := Option.map_eq_some_iff.mp (hfound.trans (by rw [hu]; rfl))
      rw [hu']
      exact h
    | none =>
      -- both runs create the user with the same id
      rw [hu, Option.map_none, Option.map_eq_none_iff] at hfound
      rw [hfound]
      exact h.addUser (congrArg (·, P.toLowerCase value.email) hr.newId)

theorem sameContents_login (h : SameContents s s') (body : Json) :
    SameContents ((login P cfg r body).exec (memoryStore P) s).state
      ((login P cfg r' body).exec (memoryStore P) s').state := by
  have hstate : ∀ (req : Request) (t : MemoryState), ∃ users,
      ((login P cfg req body).exec (memoryStore P) t).state = { t with users } ∧
        users.map User.identity = t.users.map User.identity := by
    intro req t
    -- a login changes a role at most, whatever password and salt it meets
    rcases state_login P cfg req body t with hn | ⟨value, user, -, -, -, hn⟩
    · exact ⟨t.users, hn, rfl⟩
    · exact ⟨_, hn, identity_setRole t user.id (requestedRole value)⟩
  obtain ⟨users, hs, hsame⟩ := hstate r s
  obtain ⟨users', hs', hsame'⟩ := hstate r' s'
  rw [hs, hs']
  exact ⟨hsame'.trans (h.users.trans hsame.symm), h.lessons, h.progress⟩

theorem outcomesAlike_tracks (h : SameContents s s') {user user' : User}
    (hid : user'.id = user.id) :
    OutcomesAlike ((tracks user).exec (memoryStore P) s)
      ((tracks user').exec (memoryStore P) s') := by
  rw [exec_tracks, exec_tracks, hid]
  refine h.answer 200 ?_
  rw [buildTrackStats_congr .double h.lessons (h.marks user.id)]

theorem outcomesAlike_lessons (h : SameContents s s') (hr : r.Retimes P cfg r') {user user' : User}
    (hid : user'.id = user.id) :
    OutcomesAlike ((lessons r user).exec (memoryStore P) s)
      ((lessons r' user').exec (memoryStore P) s') := by
  rw [exec_lessons, exec_lessons, hid, hr.query]
  exact h.answer 200 (congrArg Body.lessons (h.lessonResponses r.query user.id))

theorem outcomesAlike_lessonById (h : SameContents s s') (id : String) {user user' : User}
    (hid : user'.id = user.id) :
    OutcomesAlike ((lessonById id user).exec (memoryStore P) s)
      ((lessonById id user').exec (memoryStore P) s') := by
  rw [exec_lessonById, exec_lessonById, hid]
  have hfound := h.lessonById id
  cases hl : s.lessonById id with
  | none =>
    rw [hl, Option.map_none, Option.map_eq_none_iff] at hfound
    rw [hfound]
    exact h.answer 404 rfl
  | some l =>
    obtain ⟨l', hl', huntimed⟩ := Option.map_eq_some_iff.mp (hfound.trans (by rw [hl]; rfl))
    rw [hl']
    exact h.answer 200
      (congrArg Body.lesson (untimed_toLessonResponse huntimed (h.marks user.id l.id)))

theorem outcomesAlike_postProgress (h : SameContents s s') (r r' : Request) (body : Json)
    {user user' : User} (hid : user'.id = user.id) :
    OutcomesAlike ((postProgress P r body user).exec (memoryStore P) s)
      ((postProgress P r' body user').exec (memoryStore P) s') := by
  rw [exec_postProgress, exec_postProgress]
  cases progressSchema P body.orEmpty with
  | error message => exact h.answer 400 rfl
  | ok value =>
    have hfound := h.lessonById value.lessonId
    have hwrite : progressWrite user' value = progressWrite user value := by
      simp only [progressWrite, hid]
    dsimp only
    cases hl : s.lessonById value.lessonId with
    | none =>
      rw [hl, Option.map_none, Option.map_eq_none_iff] at hfound
      rw [hfound]
      exact h.answer 404 rfl
    | some l =>
      obtain ⟨l', hl', -⟩ := Option.map_eq_some_iff.mp (hfound.trans (by rw [hl]; rfl))
      rw [hl', hwrite, hid]
      have hw := h.writeProgress (progressWrite user value) r.seeds.storedAt r'.seeds.storedAt
      exact hw.answer 201 (congrArg Body.progress (hw.formatProgress user.id))

theorem outcomesAlike_progress (h : SameContents s s') {user user' : User}
    (hid : user'.id = user.id) :
    OutcomesAlike ((progress user).exec (memoryStore P) s)
      ((progress user').exec (memoryStore P) s') := by
  rw [exec_progress, exec_progress, hid]
  exact h.answer 200 (congrArg Body.progress (h.formatProgress user.id))

/-- The routes behind the authentication middleware. -/
theorem outcomesAlike_authMiddleware (h : SameContents s s') (hr : r.Retimes P cfg r')
    {next next' : User → Handler}
    (hnext : ∀ user user' : User, user'.id = user.id →
      OutcomesAlike ((next user).exec (memoryStore P) s)
        ((next' user').exec (memoryStore P) s')) :
    SameContents ((authMiddleware P cfg r next).exec (memoryStore P) s).state
        ((authMiddleware P cfg r' next').exec (memoryStore P) s').state ∧
      ((r.subject P cfg).isSome →
        OutcomesAlike ((authMiddleware P cfg r next).exec (memoryStore P) s)
          ((authMiddleware P cfg r' next').exec (memoryStore P) s')) := by
  rw [exec_authMiddleware, exec_authMiddleware]
  -- the two requests have one subject, so that both are identified or neither is
  rcases identify_of_subject P cfg r with ⟨message, hnone, hi⟩ | ⟨id, hid, hi⟩
  · rcases identify_of_subject P cfg r' with ⟨message', -, hi'⟩ | ⟨id, hid, -⟩
    · rw [hi, hi']
      exact ⟨h, fun hsome => by rw [hnone] at hsome; cases hsome⟩
    · rw [hr.subject, hnone] at hid
      cases hid
  · rcases identify_of_subject P cfg r' with ⟨message', hnone, -⟩ | ⟨id', hid', hi'⟩
    · rw [hr.subject, hid] at hnone
      cases hnone
    · rw [hr.subject, hid] at hid'
      obtain rfl := Option.some.inj hid'
      rw [hi, hi']
      have hfound := h.userById id
      -- the users agree up to the salts of their hashes, which no handler shows
      suffices halike : OutcomesAlike _ _ from ⟨halike.state, fun _ => halike⟩
      cases hu : s.userById id with
      | none =>
        rw [hu, Option.map_none, Option.map_eq_none_iff] at hfound
        rw [hfound]
        exact h.answer 401 rfl
      | some user =>
        obtain ⟨user', hu', hsame⟩ :=
          Option.map_eq_some_iff.mp (hfound.trans (by rw [hu]; rfl))
        rw [hu']
        exact hnext user user' (congrArg Prod.fst hsame)

/-! ## Runs -/

theorem sameContents_serve (h : SameContents s s') (hr : r.Retimes P cfg r') :
    SameContents ((serve P cfg r).exec (memoryStore P) s).state
        ((serve P cfg r').exec (memoryStore P) s').state ∧
      (r.ReachesLearning → (r.subject P cfg).isSome →
        OutcomesAlike ((serve P cfg r).exec (memoryStore P) s)
          ((serve P cfg r').exec (memoryStore P) s')) := by
  -- of the other routes only the state is asked, as they answer with tokens and times
  have hother : ∀ {e : Endpoint}, r.endpoint = some e → e.isLearning = false →
      ¬ r.ReachesLearning := by
    rintro e he hl ⟨-, e', he', hl'⟩
    obtain rfl := Option.some.inj (he.symm.trans he')
    rw [hl] at hl'
    cases hl'
  unfold serve
  rw [hr.payload]
  cases hp : r.payload with
  | refused status =>
    exact ⟨h, fun hlearning => absurd hlearning.1 (by simp [hp])⟩
  | parsed body =>
    unfold routers
    rw [hr.endpoint]
    cases he : r.endpoint with
    | none =>
      refine ⟨h, ?_⟩
      rintro ⟨-, e, he', -⟩
      rw [he] at he'
      cases he'
    | some e =>
      cases e with
      | health => exact ⟨h, fun hlearning => absurd hlearning (hother he rfl)⟩
      | ready => exact ⟨h, fun hlearning => absurd hlearning (hother he rfl)⟩
      | register =>
        exact ⟨sameContents_register h hr body,
          fun hlearning => absurd hlearning (hother he rfl)⟩
      | login =>
        exact ⟨sameContents_login h body, fun hlearning => absurd hlearning (hother he rfl)⟩
      | tracks =>
        have ha := outcomesAlike_authMiddleware h hr fun _ _ hid => outcomesAlike_tracks h hid
        exact ⟨ha.1, fun _ => ha.2⟩
      | lessons =>
        have ha := outcomesAlike_authMiddleware h hr fun _ _ hid => outcomesAlike_lessons h hr hid
        exact ⟨ha.1, fun _ => ha.2⟩
      | lesson id =>
        cases id with
        | none => exact ⟨h, fun hlearning => absurd hlearning (hother he rfl)⟩
        | some id =>
          have ha := outcomesAlike_authMiddleware h hr fun _ _ hid =>
            outcomesAlike_lessonById h id hid
          exact ⟨ha.1, fun _ => ha.2⟩
      | postProgress =>
        have ha := outcomesAlike_authMiddleware h hr fun _ _ hid =>
          outcomesAlike_postProgress h r r' body hid
        exact ⟨ha.1, fun _ => ha.2⟩
      | progress =>
        have ha := outcomesAlike_authMiddleware h hr fun _ _ hid => outcomesAlike_progress h hid
        exact ⟨ha.1, fun _ => ha.2⟩

/-- **Requests at other moments keep the contents the same.** -/
theorem SameContents.next (h : SameContents s s') (hr : r.Retimes P cfg r') :
    SameContents (s.next P cfg r) (s'.next P cfg r') := (sameContents_serve h hr).1

theorem SameContents.after (h : SameContents s s') {reqs reqs' : List Request}
    (hreqs : Forall₂ (Request.Retimes P cfg) reqs reqs') :
    SameContents (s.after P cfg reqs) (s'.after P cfg reqs') := by
  induction hreqs generalizing s s' with
  | nil => exact h
  | cons hr _ ih => exact ih (h.next hr)

theorem sameContents_createMemoryStore (catalogue : List CoreLesson) (salt salt' : String)
    (now now' : Time) :
    SameContents (createMemoryStore P catalogue salt now)
      (createMemoryStore P catalogue salt' now') where
  users := rfl
  lessons := by
    simp only [createMemoryStore, seedLessons, map_map]
    rfl
  progress := .nil

/-- **A learning request with a subject is answered alike up to timestamps.** -/
theorem untimed_respond (h : SameContents s s') (hr : r.Retimes P cfg r')
    (hlearning : r.ReachesLearning) (hsubject : (r.subject P cfg).isSome) :
    (s'.respond P cfg r').map Response.untimed = (s.respond P cfg r).map Response.untimed :=
  ((sameContents_serve h hr).2 hlearning hsubject).sent

end LanguageGuru
