import LanguageGuru.Backend.Clocks
import LanguageGuru.Backend.Content

/-!
# Users do not interfere

The responses to a user's learning requests do not change when the learning requests of other
users and the registrations and logins of other accounts are removed from the run. Two states
agree for a user when they hold the same lessons, the same record of the user and the same progress
of the user; kept requests preserve the agreement and answer alike, removed requests change nothing
that it sees.

## Main definitions

* `Request.foreign`: the requests that are removed for a user
* `Agrees`: the unwinding relation

## Main results

* `respond_eq_of_filter`: a user's learning requests are answered alike in both runs
* `users_do_not_interfere`: and so they are, up to timestamps, when the second run is at other
  moments
-/

namespace LanguageGuru

open Process

variable {P : Platform} {cfg : Config}

/-! ## Requests of a user -/

/-- The request is a learning request of another user than `b`, or a registration or a login with
another email. -/
def Request.foreign (P : Platform) (cfg : Config) (b : User) (req : Request) : Bool :=
  match req.payload with
  | .refused _ => false
  | .parsed body =>
    match req.endpoint with
    | none => false
    | some .register =>
      match registerSchema P body.orEmpty with
      | .ok value => P.toLowerCase value.email ≠ P.toLowerCase b.email
      | .error _ => false
    | some .login =>
      match loginSchema P body.orEmpty with
      | .ok value => P.toLowerCase value.email ≠ P.toLowerCase b.email
      | .error _ => false
    | some e => e.isLearning && (req.subject P cfg).any (· ≠ b.id)

/-! ## Agreement -/

/-- Whether a record has the email of `b`. -/
def sharesEmail (P : Platform) (b u : User) : Bool := P.toLowerCase u.email = P.toLowerCase b.email

/-- The states agree on everything that concerns `b`: the lessons, the records with its email, and
its progress. The second state has no accounts but those of the first. -/
structure Agrees (P : Platform) (b : User) (s s' : MemoryState) : Prop where
  lessons : s'.lessons = s.lessons
  users : s'.users.filter (sharesEmail P b) = s.users.filter (sharesEmail P b)
  progress : s'.progressOf b.id = s.progressOf b.id
  accounts : (s'.users.map User.account).Sublist (s.users.map User.account)

/-- Ids are distinct, and the id of `b` is the id of a record with its email. -/
structure Owned (P : Platform) (b : User) (s : MemoryState) : Prop where
  ids : (s.users.map User.id).Nodup
  owner : ∀ u ∈ s.users, u.id = b.id → sharesEmail P b u = true

variable {b : User} {s s' : MemoryState}

theorem Agrees.refl (s : MemoryState) : Agrees P b s s := ⟨rfl, rfl, rfl, List.Sublist.refl _⟩

/-- What holds of the first state by its accounts holds of the second. -/
theorem Agrees.owned (h : Agrees P b s s') (ho : Owned P b s) : Owned P b s' := by
  constructor
  · have hids := h.accounts.map Account.id
    rw [List.map_map, List.map_map] at hids
    exact ho.ids.sublist hids
  · intro u hu hid
    -- the account of `u` is one of the first state, and has its owner there
    obtain ⟨v, hv, ha⟩ := List.mem_map.mp (h.accounts.subset (List.mem_map_of_mem hu))
    simp only [User.account, Account.mk.injEq] at ha
    have hshare := ho.owner v hv (ha.1.trans hid)
    rwa [sharesEmail, ha.2.1] at hshare

/-- The email of `b` leads to the same record. -/
theorem Agrees.userByEmail (h : Agrees P b s s') {email : String}
    (he : P.toLowerCase email = P.toLowerCase b.email) :
    s'.userByEmail P email = s.userByEmail P email := by
  have hshare : ∀ u : User, decide (P.toLowerCase u.email = P.toLowerCase email) = true →
      sharesEmail P b u = true := fun u hu => by
    rw [sharesEmail, ← he]
    exact hu
  exact Keyed.find?_eq_of_filter_eq h.users (fun u _ => hshare u) fun u _ => hshare u

/-- The id of `b` leads to the same record. -/
theorem Agrees.userById (h : Agrees P b s s') (ho : Owned P b s) :
    s'.userById b.id = s.userById b.id :=
  Keyed.find?_eq_of_filter_eq h.users
    (fun u hu hid => (h.owned ho).owner u hu (of_decide_eq_true hid))
    fun u hu hid => ho.owner u hu (of_decide_eq_true hid)

/-- A record is found under its own id. -/
theorem Owned.userById (ho : Owned P b s) {u : User} (hu : u ∈ s.users) :
    s.userById u.id = some u := Keyed.lookup_of_mem ho.ids hu

/-! ## Changes of both states -/

theorem Agrees.addUser (h : Agrees P b s s') (u : User) :
    Agrees P b (s.addUser u) (s'.addUser u) where
  lessons := h.lessons
  users := by simp only [MemoryState.addUser, List.filter_append, h.users]
  progress := h.progress
  accounts := by
    rw [accounts_addUser, accounts_addUser]
    exact h.accounts.append (List.Sublist.refl _)

/-- The records with the id of a record that has the email of `b`. -/
theorem Owned.sharesEmail_of_id (ho : Owned P b s) {u : User} (hu : u ∈ s.users)
    (hshare : sharesEmail P b u = true) :
    ∀ v ∈ s.users, v.id = u.id → sharesEmail P b v = true := by
  intro v hv hid
  rw [Keyed.eq_of_mem_of_key ho.ids hv hu hid]
  exact hshare

theorem Agrees.setRole (h : Agrees P b s s') (ho : Owned P b s) {u : User} (hu : u ∈ s.users)
    (hu' : u ∈ s'.users) (hshare : sharesEmail P b u = true) (role : String) :
    Agrees P b (s.setRole u.id role) (s'.setRole u.id role) where
  lessons := h.lessons
  users := by
    have hkeep : ∀ x : User, x.id = u.id →
        sharesEmail P b { x with role } = sharesEmail P b x := fun _ _ => rfl
    simp only [MemoryState.setRole]
    rw [Keyed.filter_update_of_pos ((h.owned ho).sharesEmail_of_id hu' hshare) hkeep,
      Keyed.filter_update_of_pos (ho.sharesEmail_of_id hu hshare) hkeep, h.users]
  progress := h.progress
  accounts := by
    rw [accounts_setRole, accounts_setRole]
    exact h.accounts

/-- The write is about progress of `b`, and stays so. -/
theorem progressOf_writeProgress {w : ProgressWrite} (hw : w.userId = b.id) (now : Time) :
    (s.writeProgress w now).progressOf b.id =
      Keyed.upsert ProgressRecord.key w.key (w.overwrite now) (w.record now)
        (s.progressOf b.id) := by
  refine Keyed.filter_upsert_of_pos s.progress (fun x hx => ?_) (fun x hx => ?_) ?_
  · exact decide_eq_true ((congrArg Prod.fst hx).trans hw)
  · exact decide_eq_true ((congrArg Prod.fst hx).trans hw)
  · exact decide_eq_true hw

theorem Agrees.writeProgress (h : Agrees P b s s') {w : ProgressWrite} (hw : w.userId = b.id)
    (now : Time) : Agrees P b (s.writeProgress w now) (s'.writeProgress w now) where
  lessons := h.lessons
  users := h.users
  progress := by rw [progressOf_writeProgress hw, progressOf_writeProgress hw, h.progress]
  accounts := h.accounts

/-! ## Changes of the first state alone -/

theorem Agrees.addUser_left (h : Agrees P b s s') {u : User} (hu : sharesEmail P b u = false) :
    Agrees P b (s.addUser u) s' where
  lessons := h.lessons
  users := by simp [MemoryState.addUser, List.filter_append, h.users, hu]
  progress := h.progress
  accounts := by
    rw [accounts_addUser]
    exact h.accounts.trans (List.sublist_append_left _ _)

theorem Agrees.setRole_left (h : Agrees P b s s') (ho : Owned P b s) {u : User}
    (hu : u ∈ s.users) (hshare : sharesEmail P b u = false) (role : String) :
    Agrees P b (s.setRole u.id role) s' where
  lessons := h.lessons
  users := by
    have hother : ∀ v ∈ s.users, v.id = u.id → sharesEmail P b v = false := fun v hv hid => by
      rw [Keyed.eq_of_mem_of_key ho.ids hv hu hid]
      exact hshare
    have hkeep : ∀ x : User, x.id = u.id →
        sharesEmail P b { x with role } = sharesEmail P b x := fun _ _ => rfl
    simp only [MemoryState.setRole]
    rw [Keyed.filter_update_of_neg hother hkeep, h.users]
  progress := h.progress
  accounts := by
    rw [accounts_setRole]
    exact h.accounts

theorem Agrees.writeProgress_left (h : Agrees P b s s') {w : ProgressWrite}
    (hw : w.userId ≠ b.id) (now : Time) : Agrees P b (s.writeProgress w now) s' where
  lessons := h.lessons
  users := h.users
  progress := by
    rw [h.progress]
    refine (Keyed.filter_upsert_of_neg s.progress (fun x hx => ?_) (fun x hx => ?_) ?_).symm
    · exact decide_eq_false fun he => hw ((congrArg Prod.fst hx).symm.trans he)
    · exact decide_eq_false fun he => hw ((congrArg Prod.fst hx).symm.trans he)
    · exact decide_eq_false hw
  accounts := h.accounts

/-! ## Kept requests -/

/-- Two runs of a request sent the same, and left states that agree. -/
def OutcomesAgree (P : Platform) (b : User)
    (o o' : Program.Outcome Failure Response Unit MemoryState) : Prop :=
  o'.sent = o.sent ∧ Agrees P b o.state o'.state

section Kept

variable {req : Request} {body : Json}

theorem Agrees.register (h : Agrees P b s s')
    (hemail : ∀ value, registerSchema P body.orEmpty = .ok value →
      P.toLowerCase value.email = P.toLowerCase b.email) :
    OutcomesAgree P b ((register P cfg req body).exec (memoryStore P) s)
      ((register P cfg req body).exec (memoryStore P) s') := by
  rw [exec_register, exec_register]
  cases hv : registerSchema P body.orEmpty with
  | error message => exact ⟨rfl, h⟩
  | ok value =>
    dsimp only
    rw [h.userByEmail (hemail value hv)]
    cases s.userByEmail P value.email with
    | some u => exact ⟨rfl, h⟩
    | none => exact ⟨rfl, h.addUser _⟩

theorem Agrees.loginFound (h : Agrees P b s s') (ho : Owned P b s) {user : User}
    (hu : user ∈ s.users) (hu' : user ∈ s'.users) (hshare : sharesEmail P b user = true)
    (value : LoginValue) :
    OutcomesAgree P b ((loginFound P cfg req value (some user)).exec (memoryStore P) s)
      ((loginFound P cfg req value (some user)).exec (memoryStore P) s') := by
  rw [exec_loginFound, exec_loginFound]
  split_ifs
  · exact ⟨rfl, h⟩
  · -- the answer shows the user found under the id, which the email leads to as well
    rw [ho.userById hu, (h.owned ho).userById hu']
    exact ⟨rfl, h.setRole ho hu hu' hshare _⟩
  · exact ⟨rfl, h⟩

theorem Agrees.login (h : Agrees P b s s') (ho : Owned P b s)
    (hemail : ∀ value, loginSchema P body.orEmpty = .ok value →
      P.toLowerCase value.email = P.toLowerCase b.email) :
    OutcomesAgree P b ((login P cfg req body).exec (memoryStore P) s)
      ((login P cfg req body).exec (memoryStore P) s') := by
  rw [exec_login, exec_login]
  cases hv : loginSchema P body.orEmpty with
  | error message => exact ⟨rfl, h⟩
  | ok value =>
    have he := hemail value hv
    have hfound := h.userByEmail he
    dsimp only
    rw [hfound]
    cases hu : s.userByEmail P value.email with
    | none => exact ⟨rfl, h⟩
    | some user =>
      rw [hu] at hfound
      have hshare : sharesEmail P b user = true :=
        decide_eq_true ((email_of_userByEmail hu).trans he)
      exact h.loginFound ho (mem_of_userByEmail hu) (mem_of_userByEmail hfound) hshare value

/-- A route behind the authentication middleware, when nobody or `b` is identified. -/
theorem Agrees.authMiddleware (h : Agrees P b s s') (ho : Owned P b s)
    (hsubject : ∀ id, req.subject P cfg = some id → id = b.id) {next : User → Handler}
    (hnext : ∀ user : User, user.id = b.id →
      OutcomesAgree P b ((next user).exec (memoryStore P) s)
        ((next user).exec (memoryStore P) s')) :
    OutcomesAgree P b ((authMiddleware P cfg req next).exec (memoryStore P) s)
      ((authMiddleware P cfg req next).exec (memoryStore P) s') := by
  rw [exec_authMiddleware, exec_authMiddleware]
  rcases identify_of_subject P cfg req with ⟨message, -, hi⟩ | ⟨id, hid, hi⟩
  · rw [hi, hi]
    exact ⟨rfl, h⟩
  · obtain rfl := hsubject id hid
    rw [hi, hi, h.userById ho]
    cases hu : s.userById b.id with
    | none => exact ⟨rfl, h⟩
    | some user => exact hnext user (Keyed.key_of_lookup hu)

/-- A handler that only reads the lessons and the progress of `b`. -/
theorem Agrees.reads (h : Agrees P b s s') {p : Handler}
    (f : List Lesson → List ProgressRecord → Response)
    (hp : ∀ t : MemoryState, p.exec (memoryStore P) t =
      ⟨.ok (), [f t.lessons (t.progressOf b.id)], t⟩) :
    OutcomesAgree P b (p.exec (memoryStore P) s) (p.exec (memoryStore P) s') := by
  rw [hp, hp, h.lessons, h.progress]
  exact ⟨rfl, h⟩

theorem Agrees.lessonById (h : Agrees P b s s') (id : String) {user : User}
    (hid : user.id = b.id) :
    OutcomesAgree P b ((lessonById id user).exec (memoryStore P) s)
      ((lessonById id user).exec (memoryStore P) s') := by
  rw [exec_lessonById, exec_lessonById, MemoryState.lessonById, MemoryState.lessonById, hid,
    h.lessons, h.progress]
  cases s.lessons.find? fun l => l.id = id <;> exact ⟨rfl, h⟩

theorem Agrees.postProgress (h : Agrees P b s s') {user : User} (hid : user.id = b.id) :
    OutcomesAgree P b ((postProgress P req body user).exec (memoryStore P) s)
      ((postProgress P req body user).exec (memoryStore P) s') := by
  rw [exec_postProgress, exec_postProgress]
  cases progressSchema P body.orEmpty with
  | error message => exact ⟨rfl, h⟩
  | ok value =>
    dsimp only
    rw [MemoryState.lessonById, MemoryState.lessonById, h.lessons]
    cases s.lessons.find? fun l => l.id = value.lessonId with
    | none => exact ⟨rfl, h⟩
    | some lesson =>
      have hw := h.writeProgress (w := progressWrite user value) hid req.seeds.storedAt
      refine ⟨?_, hw⟩
      rw [hid]
      dsimp only
      rw [hw.progress]

/-- A kept request is answered alike in states that agree, and leaves states that agree. -/
theorem Agrees.serve (h : Agrees P b s s') (ho : Owned P b s)
    (hkept : req.foreign P cfg b = false) :
    OutcomesAgree P b ((serve P cfg req).exec (memoryStore P) s)
      ((serve P cfg req).exec (memoryStore P) s') := by
  unfold LanguageGuru.serve
  cases hp : req.payload with
  | refused status => exact ⟨rfl, h⟩
  | parsed body =>
    unfold routers
    cases he : req.endpoint with
    | none => exact ⟨rfl, h⟩
    | some e =>
      simp only [Request.foreign, hp, he] at hkept
      -- a kept request that carries an accepted token carries one of the account
      have hsubject (hl : e.isLearning = true)
          (hkept : (e.isLearning && (req.subject P cfg).any (· ≠ b.id)) = false) :
          ∀ id, req.subject P cfg = some id → id = b.id := fun id hs => by
        simpa [hl, hs] using hkept
      cases e with
      | health => exact ⟨rfl, h⟩
      | ready => exact ⟨rfl, h⟩
      | register => exact h.register fun value hv => by simpa [hv] using hkept
      | login => exact h.login ho fun value hv => by simpa [hv] using hkept
      | tracks =>
        refine h.authMiddleware ho (hsubject rfl hkept) fun user hid => ?_
        refine h.reads (fun ls ps => ⟨200, .tracks (buildTrackStats .double ls ps)⟩) fun t => ?_
        rw [exec_tracks, hid]
      | lessons =>
        refine h.authMiddleware ho (hsubject rfl hkept) fun user hid => ?_
        refine h.reads (fun ls ps =>
          ⟨200, .lessons ((ls.filter req.query.admits).map fun l =>
            toLessonResponse l (progressMap ps))⟩) fun t => ?_
        rw [exec_lessons, hid]
      | lesson id =>
        cases id with
        | none => exact ⟨rfl, h⟩
        | some id =>
          exact h.authMiddleware ho (hsubject rfl hkept) fun user hid => h.lessonById id hid
      | postProgress =>
        exact h.authMiddleware ho (hsubject rfl hkept) fun user hid => h.postProgress hid
      | progress =>
        refine h.authMiddleware ho (hsubject rfl hkept) fun user hid => ?_
        refine h.reads (fun _ ps => ⟨200, .progress (formatProgress ps)⟩) fun t => ?_
        rw [exec_progress, hid]

end Kept

/-! ## Removed requests -/

theorem Agrees.next_left (hlower : ∀ e, P.toLowerCase (P.toLowerCase e) = P.toLowerCase e)
    (h : Agrees P b s s') (ho : Owned P b s) {req : Request}
    (hforeign : req.foreign P cfg b = true) : Agrees P b (s.next P cfg req) s' := by
  rcases next_cases P cfg s req with hn | ⟨value, hr, hn⟩ | ⟨value, user, hr, hn⟩ |
    ⟨value, user, hr, hn⟩
  · rw [hn]
    exact h
  · -- it registers another email
    obtain ⟨body, hp, he, hv, -⟩ := hr
    simp only [Request.foreign, hp, he, hv, decide_eq_true_eq] at hforeign
    rw [hn]
    refine h.addUser_left (decide_eq_false ?_)
    exact fun hemail => hforeign ((hlower value.email).symm.trans hemail)
  · -- it logs another email in, and changes the role of that user
    obtain ⟨body, hp, he, hv, hu, -⟩ := hr
    simp only [Request.foreign, hp, he, hv, decide_eq_true_eq] at hforeign
    rw [hn]
    refine h.setRole_left ho (mem_of_userByEmail hu) (decide_eq_false ?_) _
    exact fun hemail => hforeign ((email_of_userByEmail hu).symm.trans hemail)
  · -- it writes the progress of another subject
    obtain ⟨body, hp, he, hi, -, -⟩ := hr
    simp only [Request.foreign, hp, he, Endpoint.isLearning, Bool.true_and] at hforeign
    rw [hn]
    refine h.writeProgress_left ?_ _
    rcases identify_of_subject P cfg req with ⟨message, -, hi'⟩ | ⟨id, hid, hi'⟩
    · rw [hi'] at hi
      cases hi
    · rw [hi'] at hi
      have hne : id ≠ b.id := by simpa [hid] using hforeign
      cases hu : s.userById id with
      | none => simp [hu] at hi
      | some u =>
        rw [hu] at hi
        obtain rfl := Except.ok.inj hi
        exact fun he => hne ((Keyed.key_of_lookup hu).symm.trans he)

/-! ## The two runs -/

/-- When the ids at the end of a run are distinct, they are distinct before it, and the id of a
user of the end is its own before it. -/
theorem owned_of_after {reqs : List Request} (hb : b ∈ (s.after P cfg reqs).users)
    (hids : ((s.after P cfg reqs).users.map User.id).Nodup) : Owned P b s := by
  refine ⟨hids.sublist (ids_after P cfg s reqs).sublist, fun u hu hid => ?_⟩
  -- accounts are only added, so that the account of `u` is still there at the end
  obtain ⟨v, hv, ha⟩ :=
    List.mem_map.mp ((accounts_after P cfg s reqs).subset (List.mem_map_of_mem hu))
  simp only [User.account, Account.mk.injEq] at ha
  obtain rfl := Keyed.eq_of_mem_of_key hids hv hb (ha.1.trans hid)
  simp [sharesEmail, ha.2.1]

/-- A prefix of a run and the same prefix without the foreign requests lead to states that
agree. -/
theorem agrees_after (hlower : ∀ e, P.toLowerCase (P.toLowerCase e) = P.toLowerCase e)
    {reqs : List Request} (hb : b ∈ (s.after P cfg reqs).users)
    (hids : ((s.after P cfg reqs).users.map User.id).Nodup) {pre : List Request}
    (hpre : pre <+: reqs) :
    Agrees P b (s.after P cfg pre)
      (s.after P cfg (pre.filter fun req => !req.foreign P cfg b)) := by
  have howned : ∀ q, q <+: reqs → Owned P b (s.after P cfg q) := by
    rintro q ⟨post, rfl⟩
    rw [MemoryState.after_append] at hb hids
    exact owned_of_after hb hids
  refine run_filter_unwinding (C := fun s _ => Owned P b s) ?_ ?_ (Agrees.refl s) ?_
  · exact fun s s' req hk ho h => (h.serve ho (by simpa using hk)).2
  · exact fun s s' req hk ho h => h.next_left hlower ho (by simpa using hk)
  · refine stepsMeet_of_forall_prefix fun q req hq => howned q ?_
    exact ((List.prefix_append q [req]).trans hq).trans hpre

/-- At the same moments, every learning request of the user `b` is answered in a run as it is
answered in the run without the foreign requests. -/
theorem respond_eq_of_filter {P : Platform} {cfg : Config}
    (hlower : ∀ e, P.toLowerCase (P.toLowerCase e) = P.toLowerCase e) {s : MemoryState}
    {reqs : List Request} {b : User} (hb : b ∈ (s.after P cfg reqs).users)
    (hids : ((s.after P cfg reqs).users.map User.id).Nodup) {pre : List Request} {req : Request}
    (hreq : pre ++ [req] <+: reqs) (hsubject : req.subject P cfg = some b.id)
    (hlearning : req.ReachesLearning) :
    (s.after P cfg (pre.filter fun r => !r.foreign P cfg b)).respond P cfg req =
      (s.after P cfg pre).respond P cfg req := by
  have hpre : pre <+: reqs := (List.prefix_append pre [req]).trans hreq
  have howned : Owned P b (s.after P cfg pre) := by
    obtain ⟨post, rfl⟩ := hpre
    rw [MemoryState.after_append] at hb hids
    exact owned_of_after hb hids
  have hkept : req.foreign P cfg b = false := by
    obtain ⟨⟨body, hp⟩, e, he, hl⟩ := hlearning
    simp only [Request.foreign, hp, he]
    match e, hl with
    | .tracks, _ => simp [hsubject]
    | .lessons, _ => simp [hsubject]
    | .lesson (some id), _ => simp [hsubject]
    | .postProgress, _ => simp [hsubject]
    | .progress, _ => simp [hsubject]
  exact ((agrees_after hlower hb hids hpre).serve howned hkept).1

/-- **Users do not interfere.** Every learning request of the user `b` is answered in a run as it
is answered, up to timestamps, in the run without the learning requests of other users and the
registrations and logins with other emails. The requests of the second run are the kept ones at
other moments. -/
theorem users_do_not_interfere {P : Platform} {cfg : Config}
    (hlower : ∀ e, P.toLowerCase (P.toLowerCase e) = P.toLowerCase e)
    (catalogue : List CoreLesson) (salt salt' : String) (now now' : Time) {reqs : List Request}
    {b : User} (hb : b ∈ ((createMemoryStore P catalogue salt now).after P cfg reqs).users)
    (hids : (((createMemoryStore P catalogue salt now).after P cfg reqs).users.map
      User.id).Nodup)
    {pre pre' : List Request} {req req' : Request} (hreq : pre ++ [req] <+: reqs)
    (hpre' : List.Forall₂ (Request.Retimes P cfg)
      (pre.filter fun r => !r.foreign P cfg b) pre')
    (hreq' : req.Retimes P cfg req')
    (hsubject : req.subject P cfg = some b.id) (hlearning : req.ReachesLearning) :
    (((createMemoryStore P catalogue salt' now').after P cfg pre').respond P cfg req').map
        Response.untimed =
      (((createMemoryStore P catalogue salt now).after P cfg pre).respond P cfg req).map
        Response.untimed := by
  rw [← respond_eq_of_filter hlower hb hids hreq hsubject hlearning]
  have hsame := (sameContents_createMemoryStore (P := P) catalogue salt salt' now now').after hpre'
  exact untimed_respond hsame hreq' hlearning (by rw [hsubject]; rfl)

/-- What another account does leaves the progress that an account is shown alone, on another
day. -/
theorem ada_does_not_see_eve :
    let adaRegisters := plainRegistration "ada" "ada@example.com" "secret1" "u_1"
    let eveRegisters := plainRegistration "eve" "eve@example.com" "secret2" "u_2"
    let posts (id email : String) (iat : Time) (seeds : Seeds) : Request :=
      { plainRequest .post ["api", "progress"] (plainBearer id email iat)
          (.obj [("lessonId", .str "l_conf_1"), ("completed", .bool true), ("score", .num 80)])
          "" with seeds }
    let today : Seeds := ⟨1, 1, 1, 1, "", "salt", 0⟩
    let tomorrow : Seeds := ⟨9, 9, 9, 9, "", "pepper", 8⟩
    let s₀ := createMemoryStore plainPlatform [dailyConversation] "salt" 0
    let s₀' := createMemoryStore plainPlatform [dailyConversation] "pepper" 8
    ((s₀'.after plainPlatform plainConfig [adaRegisters]).respond plainPlatform plainConfig
        (posts "u_1" "ada@example.com" 8 tomorrow)).map Response.untimed =
      ((s₀.after plainPlatform plainConfig
        [adaRegisters, eveRegisters, posts "u_2" "eve@example.com" 0 today]).respond plainPlatform
        plainConfig (posts "u_1" "ada@example.com" 0 today)).map Response.untimed := by
  intro adaRegisters eveRegisters posts today tomorrow s₀ s₀'
  let pre : List Request := [adaRegisters, eveRegisters, posts "u_2" "eve@example.com" 0 today]
  let ada := createdUser plainPlatform adaRegisters
    ⟨some "ada", none, "ada@example.com", "secret1", none, none⟩
  have hada : ada ∈ (s₀.after plainPlatform plainConfig
      (pre ++ [posts "u_1" "ada@example.com" 0 today])).users := by decide +kernel
  have hids : ((s₀.after plainPlatform plainConfig
      (pre ++ [posts "u_1" "ada@example.com" 0 today])).users.map User.id).Nodup := by
    decide +kernel
  have hforeign : adaRegisters.foreign plainPlatform plainConfig ada = false ∧
      eveRegisters.foreign plainPlatform plainConfig ada = true ∧
      (posts "u_2" "eve@example.com" 0 today).foreign plainPlatform plainConfig ada = true := by
    decide +kernel
  have hsubject : (posts "u_1" "ada@example.com" 0 today).subject plainPlatform plainConfig =
      some ada.id := by decide +kernel
  have hsubject' : (posts "u_1" "ada@example.com" 8 tomorrow).subject plainPlatform plainConfig =
      (posts "u_1" "ada@example.com" 0 today).subject plainPlatform plainConfig := by
    decide +kernel
  have hkept : List.Forall₂ (Request.Retimes plainPlatform plainConfig)
      (pre.filter fun r => !r.foreign plainPlatform plainConfig ada) [adaRegisters] := by
    simp only [pre, List.filter_cons, hforeign]
    exact .cons ⟨rfl, rfl, rfl, rfl, rfl, rfl⟩ .nil
  exact users_do_not_interfere plain_toLowerCase_idem [dailyConversation] "salt" "pepper" 0 8 hada
    hids (List.prefix_refl _) hkept ⟨rfl, rfl, rfl, rfl, rfl, hsubject'⟩ hsubject
    ⟨⟨_, rfl⟩, .postProgress, rfl, rfl⟩

end LanguageGuru
