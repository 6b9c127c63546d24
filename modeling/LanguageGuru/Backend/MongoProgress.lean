import LanguageGuru.Backend.MongoLives
import LanguageGuru.Backend.ProgressMap

/-!
# Progress on the MongoDB store

A server on the MongoDB store is killed and started again, any number of times, and serves requests
whose handlers are interleaved. A progress write that was acknowledged is not lost, and not undone
by an older one: whoever reads the progress later finds under its key the write, or one that was not
answered yet when the write arrived.

## Main definitions

* `KeptByWrites`: what every write keeps
* `Posted`: a record is that of a write which one of the requests posts
* `ShowsProgress`: what a request that reads the progress is answered with

## Main results

* `progress_exec_cases`: what a request that runs alone does to the progress
* `KeptByWrites.lives`: what every write keeps is kept over lives
* `records_since`: a record is superseded by requests that are not older
* `acknowledged_progress_survives`: an acknowledged write is shown in every later life
-/

namespace LanguageGuru

open Process

variable {P : Platform} {M : Mongoose} {cfg : Config} {req : Request} {s : MongoState}

/-! ## A request that runs alone -/

namespace MongoState

/-- A write of the database is a write of the map. -/
theorem lookup_writeProgress (s : MongoState) (w : ProgressWrite) (now : Time)
    (k : String × String) :
    Keyed.lookup ProgressRecord.key k (s.writeProgress w now).progress =
      writeOne (fun k => Keyed.lookup ProgressRecord.key k s.progress) (w, now) k :=
  LanguageGuru.lookup_writeProgress ⟨[], [], s.progress⟩ w now k

/-- A write keeps the keys distinct. -/
theorem nodup_writeProgress (h : (s.progress.map ProgressRecord.key).Nodup) (w : ProgressWrite)
    (now : Time) : ((s.writeProgress w now).progress.map ProgressRecord.key).Nodup := by
  refine Keyed.nodup_keys_upsert ?_ (key_record w now) h
  exact fun _ h => h

/-- Only `upsertProgress` changes the progress. -/
theorem progress_perform_other {c : StoreCall} (hc : c.isUpsert = false) (s : MongoState) :
    ((mongoStore P M).perform c s).2.progress = s.progress := by
  show (MongoState.perform P M c s).2.progress = _
  cases c with
  | upsertProgress w now => cases hc
  | findUserById id =>
    rw [MongoState.perform]
    split_ifs <;> rfl
  | createUser payload newId now =>
    rw [MongoState.perform]
    dsimp only
    split_ifs <;> rfl
  | updateUserRole id role =>
    rw [MongoState.perform]
    split_ifs <;> rfl
  | getLessons filters =>
    rw [MongoState.perform]
    split <;> rfl
  | _ => rfl

/-- A progress write that runs alone, behind the middleware. -/
theorem exec_postProgress (req : Request) (body : Json) (user : User) (s : MongoState) :
    (postProgress P req body user).exec (mongoStore P M) s =
      match progressSchema P body.orEmpty with
      | .error message => ⟨.ok (), [⟨400, .error message⟩], s⟩
      | .ok value =>
        match s.lessonById value.lessonId with
        | none => ⟨.ok (), [⟨404, .error "Lesson not found"⟩], s⟩
        | some _ =>
          let s' := s.writeProgress (progressWrite user value) req.seeds.storedAt
          ⟨.ok (), [⟨201, .progress (formatProgress (s'.progressOf M user.id))⟩], s'⟩ := by
  unfold postProgress
  cases progressSchema P body.orEmpty with
  | error message => rfl
  | ok value =>
    simp only [Program.await_bind, exec_getLessonById, Program.onAnswer_ok]
    cases s.lessonById value.lessonId with
    | none => rfl
    | some lesson =>
      simp only [postProgressFound, Program.await_bind, exec_upsertProgress,
        exec_getProgressForUser, Program.onAnswer_ok]
      rfl

/-- The progress list of a user, read alone. -/
theorem exec_progress (user : User) (s : MongoState) :
    (LanguageGuru.progress user).exec (mongoStore P M) s =
      ⟨.ok (), [⟨200, .progress (formatProgress (s.progressOf M user.id))⟩], s⟩ := by
  simp only [LanguageGuru.progress, Program.await_bind, exec_getProgressForUser,
    Program.onAnswer_ok]
  rfl

end MongoState

/-- A request posts one write. -/
theorem PostsProgress.unique {w w' : ProgressWrite × Time} (h : PostsProgress P cfg req w)
    (h' : PostsProgress P cfg req w') : w = w' := by
  obtain ⟨body, value, id, hp, -, hid, hv, rfl⟩ := h
  obtain ⟨body', value', id', hp', -, hid', hv', rfl⟩ := h'
  obtain rfl : body = body' := Payload.parsed.inj (hp.symm.trans hp')
  obtain rfl : value = value' := Except.ok.inj (hv.symm.trans hv')
  obtain rfl : id = id' := Option.some.inj (hid.symm.trans hid')
  rfl

/-- A request to a route behind the middleware is refused, or it runs for the user that its token
names. -/
theorem exec_behind {next : User → Handler}
    (h : serveMongo P cfg req = authMiddleware P cfg req next) (s : MongoState) :
    (∃ message, (serveMongo P cfg req).exec (mongoStore P M) s =
      ⟨.ok (), [⟨401, .error message⟩], s⟩) ∨
    ∃ user, req.subject P cfg = some user.id ∧
      (serveMongo P cfg req).exec (mongoStore P M) s = (next user).exec (mongoStore P M) s := by
  rw [h]
  rcases authMiddleware_cases P cfg req with ⟨-, message, hcall⟩ | ⟨id, hid, hcall⟩
  · rw [hcall]
    exact .inl ⟨message, rfl⟩
  · rw [hcall, Program.exec_call, perform_findUserById]
    split_ifs
    · cases hu : s.userById id with
      | none => exact .inl ⟨_, rfl⟩
      | some user =>
        obtain rfl : user.id = id := Keyed.key_of_lookup hu
        exact .inr ⟨user, hid, rfl⟩
    · exact .inl ⟨_, rfl⟩

/-- The other routes make no writes. -/
theorem within_of_reads (he : req.endpoint ≠ some .postProgress) :
    (serveMongo P cfg req).Within (fun c => c.isUpsert = false) fun _ => True := by
  by_cases hhealth : req.endpoint = some .health
  · unfold serveMongo routers
    cases req.payload with
    | refused status => exact Program.within_send trivial
    | parsed body =>
      rw [hhealth]
      exact Program.within_send trivial
  · rw [serveMongo_eq_serve P cfg hhealth]
    refine (serve_within P cfg req).mono (fun c hc => ?_) fun _ h => h
    obtain ⟨e, he', hc⟩ := hc
    cases c with
    | upsertProgress w now =>
      cases e <;> first | exact absurd he' he | cases hc
    | _ => rfl

/-- **What a request that runs alone does to the progress**: it makes the write that it posts, or it
leaves the progress alone and does not acknowledge a write. -/
theorem progress_exec_cases (P : Platform) (M : Mongoose) (cfg : Config) (req : Request)
    (s : MongoState) :
    let o := (serveMongo P cfg req).exec (mongoStore P M) s
    (o.state.progress = s.progress ∧
      (req.endpoint = some .postProgress → ∀ r ∈ o.sent, r.status ≠ 201)) ∨
    ∃ w, PostsProgress P cfg req w ∧ o.state = s.writeProgress w.1 w.2 := by
  intro o
  by_cases he : req.endpoint = some .postProgress
  · cases hp : req.payload with
    | refused status =>
      have ho : o = ⟨.ok (), [⟨500, .error "Internal Server Error"⟩], s⟩ := by
        show (serveMongo P cfg req).exec (mongoStore P M) s = _
        rw [serveMongo, hp]
        rfl
      rw [ho]
      exact .inl ⟨rfl, fun _ r hr => by simp [List.mem_singleton.mp hr]⟩
    | parsed body =>
      have hserve : serveMongo P cfg req = authMiddleware P cfg req (postProgress P req body) := by
        simp only [serveMongo, hp, routers, he]
      rcases exec_behind (M := M) hserve s with ⟨message, ho⟩ | ⟨user, hid, ho⟩
      · have ho : o = _ := ho
        rw [ho]
        exact .inl ⟨rfl, fun _ r hr => by simp [List.mem_singleton.mp hr]⟩
      · have ho : o = _ := ho
        rw [ho, MongoState.exec_postProgress]
        cases hv : progressSchema P body.orEmpty with
        | error message => exact .inl ⟨rfl, fun _ r hr => by simp [List.mem_singleton.mp hr]⟩
        | ok value =>
          dsimp only
          cases s.lessonById value.lessonId with
          | none => exact .inl ⟨rfl, fun _ r hr => by simp [List.mem_singleton.mp hr]⟩
          | some lesson => exact .inr ⟨_, ⟨body, value, user.id, hp, he, hid, hv, rfl⟩, rfl⟩
  · exact .inl ⟨(within_of_reads he).exec_state (f := MongoState.progress)
      (fun c t hc => MongoState.progress_perform_other hc t) s, fun h => absurd h he⟩

/-! ## Later writes -/

/-- A property of the progress is kept by every write which one of the requests posts. -/
def KeptByWrites (P : Platform) (cfg : Config) (posts : Request → Prop)
    (I : List ProgressRecord → Prop) : Prop :=
  ∀ req w (s : MongoState), posts req → PostsProgress P cfg req w → I s.progress →
    I (s.writeProgress w.1 w.2).progress

namespace KeptByWrites

variable {posts : Request → Prop} {I : List ProgressRecord → Prop}
  (h : KeptByWrites P cfg posts I)
include h

theorem exec (hreq : posts req) (hs : I s.progress) :
    I ((serveMongo P cfg req).exec (mongoStore P M) s).state.progress := by
  rcases progress_exec_cases P M cfg req s with ⟨hsame, -⟩ | ⟨w, hw, hstate⟩
  · rw [hsame]
    exact hs
  · rw [hstate]
    exact h req w s hreq hw hs

theorem sequential {s₀ : MongoState} {past rest : List (ℕ × Request)}
    (hrest : ∀ x ∈ rest, posts x.2)
    (hpast : I (Pool.sequential (mongoMeaning P M cfg) s₀ past).progress) :
    I (Pool.sequential (mongoMeaning P M cfg) s₀ (past ++ rest)).progress := by
  induction rest using List.reverseRecOn with
  | nil =>
    rw [List.append_nil]
    exact hpast
  | append_singleton rest x ih =>
    rw [← List.append_assoc, Pool.sequential_snoc]
    apply h.exec
    · exact hrest x (List.mem_append_right _ List.mem_cons_self)
    · exact ih fun y hy => hrest y (List.mem_append_left _ hy)

theorem run {s₀ : MongoState} {order : List (ℕ × Request)} (horder : ∀ x ∈ order, posts x.2)
    (hs₀ : I s₀.progress) : I (Pool.sequential (mongoMeaning P M cfg) s₀ order).progress := by
  have hall : I (Pool.sequential (mongoMeaning P M cfg) s₀ ([] ++ order)).progress :=
    h.sequential horder hs₀
  exact hall

end KeptByWrites

/-- The requests of a life. -/
def Life.requests : Life → List Request
  | .failed _ _ => []
  | .served _ as => as.filterMap Pool.arrival

section Lives

variable {catalogue : List CoreLesson} {db : MongoState} {seeds : StartSeeds}
  {as : List (Action Request)} {posts : Request → Prop} {I : List ProgressRecord → Prop}

/-- A start leaves the progress alone. -/
theorem progress_killedStart (P : Platform) (catalogue : List CoreLesson) (seeds : StartSeeds)
    (db : MongoState) (writes : ℕ) :
    (killedStart P catalogue seeds db writes).progress = db.progress := by
  rw [killedStart_eq]

theorem progress_started (P : Platform) (catalogue : List CoreLesson) (seeds : StartSeeds)
    (db : MongoState) : (started P catalogue seeds db).progress = db.progress := by
  rw [started, createMongoStore_eq]
  exact progress_killedStart P catalogue seeds db _

/-- The requests that take effect are requests of the life. -/
theorem mem_requests_of_linearization {s₀ : MongoState} {order : List (ℕ × Request)}
    (h : Pool.Linearization (mongoMeaning P M cfg) s₀ order (runMongo P M cfg s₀ as))
    {x : ℕ × Request} (hx : x ∈ order) : x.2 ∈ (Life.served seeds as).requests := by
  have hmem := h.mem_requests (List.mem_map_of_mem (f := Prod.snd) hx)
  rw [Pool.map_request_history] at hmem
  exact hmem

/-- What every write keeps is kept over lives. -/
theorem KeptByWrites.lives (h : KeptByWrites P cfg posts I) (hP : PlatformLaws P)
    {past later : List Life} (hfresh : ((past ++ later).flatMap Life.drawn).Nodup)
    (hlater : ∀ r ∈ later.flatMap Life.requests, posts r)
    (hpast : I (databaseAfterLives P M cfg catalogue past).progress) :
    I (databaseAfterLives P M cfg catalogue (past ++ later)).progress := by
  induction later using List.reverseRecOn with
  | nil =>
    rw [List.append_nil]
    exact hpast
  | append_singleton later life ih =>
    rw [← List.append_assoc, List.flatMap_append, List.flatMap_singleton] at hfresh
    rw [List.flatMap_append, List.flatMap_singleton] at hlater
    have hdrawn := (List.nodup_append.mp hfresh).1
    have hbefore := ih hdrawn fun r hr => hlater r (List.mem_append_left _ hr)
    rw [← List.append_assoc, databaseAfterLives, run_snoc]
    cases life with
    | failed seeds writes =>
      rw [lifeStep, progress_killedStart]
      exact hbefore
    | served seeds as =>
      obtain ⟨order, hlinear, -⟩ := (drawn_lives hP hdrawn).served hP M cfg catalogue hfresh
      rw [lifeStep, hlinear.state]
      refine h.run (fun x hx => hlater x.2 ?_) ?_
      · exact List.mem_append_right _ (mem_requests_of_linearization hlinear hx)
      · show I (started P catalogue seeds _).progress
        rw [progress_started]
        exact hbefore

end Lives

/-! ## The record of a write -/

section Records

variable {posts : Request → Prop} {k : String × String}

/-- The record is that of a write to the key which one of the requests posts. -/
def Posted (P : Platform) (cfg : Config) (posts : Request → Prop) (k : String × String)
    (p : ProgressRecord) : Prop :=
  ∃ req w, posts req ∧ PostsProgress P cfg req w ∧ w.1.key = k ∧ p = w.1.record w.2

/-- There is one record for each key, and under the key `k` that of a write which one of the
requests posts. -/
structure Records (P : Platform) (cfg : Config) (posts : Request → Prop) (k : String × String)
    (ps : List ProgressRecord) : Prop where
  distinct : (ps.map ProgressRecord.key).Nodup
  posted : ∃ p, Keyed.lookup ProgressRecord.key k ps = some p ∧ Posted P cfg posts k p

theorem Records.mono {posts' : Request → Prop} {ps : List ProgressRecord}
    (h : Records P cfg posts k ps) (hposts : ∀ r, posts r → posts' r) :
    Records P cfg posts' k ps := by
  obtain ⟨hdistinct, p, hp, r, w, hr, hw⟩ := h
  exact ⟨hdistinct, p, hp, r, w, hposts r hr, hw⟩

theorem keptByWrites_distinct (P : Platform) (cfg : Config) (posts : Request → Prop) :
    KeptByWrites P cfg posts fun ps => (ps.map ProgressRecord.key).Nodup :=
  fun _ w _ _ _ hs => MongoState.nodup_writeProgress hs w.1 w.2

/-- A write leaves its record under its key. -/
theorem records_of_write {w : ProgressWrite × Time} (hreq : posts req)
    (hw : PostsProgress P cfg req w) (hs : (s.progress.map ProgressRecord.key).Nodup) :
    Records P cfg posts w.1.key (s.writeProgress w.1 w.2).progress := by
  refine ⟨MongoState.nodup_writeProgress hs w.1 w.2, w.1.record w.2, ?_, req, w, hreq, hw, rfl, rfl⟩
  rw [MongoState.lookup_writeProgress, writeOne, Function.update_self]

/-- A record is superseded by the writes that the requests post, and by no others. -/
theorem keptByWrites_records (P : Platform) (cfg : Config) (posts : Request → Prop)
    (k : String × String) : KeptByWrites P cfg posts (Records P cfg posts k) := by
  intro req w s hreq hw hs
  by_cases hk : k = w.1.key
  · rw [hk]
    exact records_of_write hreq hw hs.distinct
  · refine ⟨MongoState.nodup_writeProgress hs.distinct w.1 w.2, ?_⟩
    rw [MongoState.lookup_writeProgress, writeOne, Function.update_of_ne hk]
    exact hs.posted

/-- The progress list of a user shows one record for a lesson. -/
theorem filter_progressOf (hn : (s.progress.map ProgressRecord.key).Nodup) {p : ProgressRecord}
    (h : Keyed.lookup ProgressRecord.key k s.progress = some p) (M : Mongoose) :
    ((formatProgress (s.progressOf M k.1)).filter fun v => v.lessonId = k.2) =
      formatProgress [p] := by
  have hselected : ((s.progress.filter fun p => p.userId = k.1).filter fun p => p.lessonId = k.2) =
      [p] := by
    rw [← Keyed.filter_of_lookup hn h, List.filter_filter]
    refine List.filter_congr fun q _ => ?_
    rw [Bool.eq_iff_iff]
    simp only [ProgressRecord.key, Prod.ext_iff, Bool.and_eq_true, decide_eq_true_eq]
    exact and_comm
  have hperm := (M.progressOrder_perm (s.progress.filter fun p => p.userId = k.1)).filter
    fun p => p.lessonId = k.2
  rw [hselected] at hperm
  rw [formatProgress, List.filter_map]
  exact congrArg formatProgress (List.perm_singleton.mp hperm)

/-- What a request that reads the progress of the user of the key is answered with: one record for
the lesson of the key, which one of the requests `posts` wrote. -/
def ShowsProgress (P : Platform) (cfg : Config) (posts : Request → Prop) (k : String × String)
    (req : Request) (responses : List Response) : Prop :=
  req.endpoint = some .progress → req.subject P cfg = some k.1 →
    ∀ r ∈ responses, r.status = 200 → ∃ ps source w, r.body = .progress ps ∧ posts source ∧
      PostsProgress P cfg source w ∧ w.1.key = k ∧
      (ps.filter fun p => p.lessonId = k.2) = formatProgress [w.1.record w.2]

/-- **What is under a key is what a reader is shown.** -/
theorem showsProgress_of_records (h : Records P cfg posts k s.progress) (req : Request) :
    ShowsProgress P cfg posts k req ((serveMongo P cfg req).exec (mongoStore P M) s).sent := by
  intro he hsubject r hr hstatus
  cases hp : req.payload with
  | refused status =>
    have hsent : r ∈ [(⟨500, .error "Internal Server Error"⟩ : Response)] := by
      rw [serveMongo, hp] at hr
      exact hr
    rw [List.mem_singleton.mp hsent] at hstatus
    cases hstatus
  | parsed body =>
    have hserve : serveMongo P cfg req = authMiddleware P cfg req progress := by
      simp only [serveMongo, hp, routers, he]
    rcases exec_behind (M := M) hserve s with ⟨message, ho⟩ | ⟨user, hid, ho⟩
    · rw [ho] at hr
      rw [List.mem_singleton.mp hr] at hstatus
      cases hstatus
    · have huser : user.id = k.1 := Option.some.inj (hid.symm.trans hsubject)
      obtain ⟨p, hlookup, source, w, hsource, hw, hkey, rfl⟩ := h.posted
      rw [ho, MongoState.exec_progress, huser] at hr
      exact ⟨_, source, w, congrArg Response.body (List.mem_singleton.mp hr), hsource, hw, hkey,
        filter_progressOf h.distinct hlookup M⟩

/-- A response that agrees with one that shows the progress shows it. -/
theorem ShowsProgress.of_agrees {r r' : Response} (h : ShowsProgress P cfg posts k req [r'])
    (hr : r.Agrees r') : ShowsProgress P cfg posts k req [r] := by
  intro he hsubject o ho hstatus
  rcases hr with rfl | ⟨hcreated, -⟩
  · exact h he hsubject o ho hstatus
  · rw [List.mem_singleton.mp ho, hcreated] at hstatus
    cases hstatus

end Records

/-! ## Acknowledged writes -/

section Linearized

variable {s₀ : MongoState} {order : List (ℕ × Request)} {pool : MongoPool P M}
  {posts : Request → Prop} {k : String × String}

/-- A task shows the progress if the record is there whenever it may take effect. -/
theorem showsProgress_of_linearization
    (h : Pool.Linearization (mongoMeaning P M cfg) s₀ order pool) {j : ℕ}
    {t : Task Request (mongoStore P M) Response Unit} (ht : pool.tasks[j]? = some t)
    (hrecords : ∀ past, past ++ [(j, t.request)] <+: order →
      Records P cfg posts k (Pool.sequential (mongoMeaning P M cfg) s₀ past).progress) :
    ShowsProgress P cfg posts k t.request t.outputs := by
  rcases h.answered j t ht with hnone | ⟨o, past, hsome, hpast, o', hexec, hagrees⟩
  · rw [hnone]
    exact fun _ _ => nofun
  · have hshows := showsProgress_of_records (M := M) (hrecords past hpast) t.request
    rw [hexec] at hshows
    rw [hsome]
    exact hshows.of_agrees hagrees

/-- The request is one that was not answered yet when the one at index `i` arrived. -/
def NotOlder (P : Platform) (M : Mongoose) (cfg : Config) (s₀ : MongoState)
    (as : List (Action Request)) (i : ℕ) (r : Request) : Prop :=
  ∃ k t, (runMongo P M cfg s₀ as).tasks[k]? = some t ∧ t.request = r ∧
    Pool.NotAnsweredBefore (V := mongoStore P M) (serveMongo P cfg) s₀ as i k

/-- From a request on, a record is superseded by requests that are not older. -/
theorem records_since {as : List (Action Request)}
    (h : Pool.Linearization (mongoMeaning P M cfg) s₀ order (runMongo P M cfg s₀ as))
    (hprefixes : ∀ bs, bs <+: as → ∃ order', order' <+: order ∧
      Pool.Linearization (mongoMeaning P M cfg) s₀ order' (runMongo P M cfg s₀ bs))
    {before later : List (ℕ × Request)} {i : ℕ} {r : Request}
    (hlater : before ++ [(i, r)] ++ later <+: order)
    (hrecords : ∀ posts : Request → Prop, posts r → Records P cfg posts k
      (Pool.sequential (mongoMeaning P M cfg) s₀ (before ++ [(i, r)])).progress) :
    Records P cfg (NotOlder P M cfg s₀ as i) k
      (Pool.sequential (mongoMeaning P M cfg) s₀ (before ++ [(i, r)] ++ later)).progress := by
  have hsplit := hlater
  rw [List.append_assoc, List.singleton_append] at hsplit
  have hposts : ∀ x ∈ (i, r) :: later, NotOlder P M cfg s₀ as i x.2 := by
    intro x hx
    obtain ⟨t, ht, hreq⟩ := h.arrived x (hsplit.subset (List.mem_append_right _ hx))
    exact ⟨x.1, t, ht, hreq, h.notAnsweredBefore hprefixes hsplit hx⟩
  apply (keptByWrites_records P cfg (NotOlder P M cfg s₀ as i) k).sequential
  · exact fun x hx => hposts x (List.mem_cons_of_mem _ hx)
  · exact hrecords _ (hposts _ List.mem_cons_self)

/-- Every task of a life shows the progress if the record is there when the life starts. -/
theorem showsProgress_of_life (hP : PlatformLaws P) {catalogue : List CoreLesson}
    {lives past : List Life} {seeds : StartSeeds} {as : List (Action Request)}
    (hfresh : (lives.flatMap Life.drawn).Nodup) (hlife : past ++ [.served seeds as] <+: lives)
    (hposts : ∀ r ∈ (Life.served seeds as).requests, posts r)
    (hpast : Records P cfg posts k (databaseAfterLives P M cfg catalogue past).progress) :
    ∀ t ∈ (servedPool P M cfg catalogue (databaseAfterLives P M cfg catalogue past) seeds as).tasks,
      ShowsProgress P cfg posts k t.request t.outputs := by
  intro t ht
  obtain ⟨order, hlinear, -⟩ := linearization_of_lives hP M cfg catalogue hfresh hlife
  obtain ⟨j, hj⟩ := List.mem_iff_getElem?.mp ht
  refine showsProgress_of_linearization hlinear hj fun past' hpast' => ?_
  refine (keptByWrites_records P cfg posts k).run (fun x hx => hposts x.2 ?_) ?_
  · have hmem : x ∈ order := ((List.prefix_append _ _).trans hpast').subset hx
    exact mem_requests_of_linearization hlinear hmem
  · rw [progress_started]
    exact hpast

/-- A write that was acknowledged has taken effect, and then its record is under its key. -/
theorem records_of_acknowledged (h : Pool.Linearization (mongoMeaning P M cfg) s₀ order pool)
    (hs₀ : (s₀.progress.map ProgressRecord.key).Nodup) {i : ℕ}
    {t : Task Request (mongoStore P M) Response Unit} (ht : pool.tasks[i]? = some t)
    {w : ProgressWrite × Time} (hw : PostsProgress P cfg t.request w) {r : Response}
    (hr : r ∈ t.outputs) (hstatus : r.status = 201) :
    ∃ past, past ++ [(i, t.request)] <+: order ∧ ∀ posts : Request → Prop, posts t.request →
      Records P cfg posts w.1.key
        (Pool.sequential (mongoMeaning P M cfg) s₀ (past ++ [(i, t.request)])).progress := by
  rcases h.answered i t ht with hnone | ⟨o, past, hsome, hpast, o', hexec, hagrees⟩
  · rw [hnone] at hr
    cases hr
  · rw [hsome] at hr
    obtain rfl := List.mem_singleton.mp hr
    have hstatus' : o'.status = 201 := by
      rcases hagrees with rfl | ⟨-, hcreated, -⟩
      · exact hstatus
      · exact hcreated
    have hdistinct : ((Pool.sequential (mongoMeaning P M cfg) s₀ past).progress.map
        ProgressRecord.key).Nodup :=
      (keptByWrites_distinct P cfg fun _ => True).run (fun _ _ => trivial) hs₀
    refine ⟨past, hpast, fun posts hposts => ?_⟩
    rw [Pool.sequential_snoc]
    show Records P cfg posts w.1.key ((serveMongo P cfg t.request).exec (mongoStore P M)
      (Pool.sequential (mongoMeaning P M cfg) s₀ past)).state.progress
    rcases progress_exec_cases P M cfg t.request
      (Pool.sequential (mongoMeaning P M cfg) s₀ past) with ⟨-, hnot⟩ | ⟨w', hw', hstate⟩
    · -- a request that leaves the progress alone acknowledges nothing
      obtain ⟨body, value, id, -, he, -⟩ := hw
      refine absurd hstatus' (hnot he o' ?_)
      rw [hexec]
      exact List.mem_singleton.mpr rfl
    · obtain rfl := hw.unique hw'
      rw [hstate]
      exact records_of_write hposts hw hdistinct

end Linearized

/-- **An acknowledged write survives.** A server on the MongoDB store is started and killed any
number of times, and serves requests whose handlers are interleaved. When a request that posts the
write `w` was answered 201, every reader of the progress that arrives later in the same life, and
every reader in a later life, is shown one record for the lesson. It is that of `w`, or of a write
that was posted in the same life by a request that was not answered yet when this one arrived, or
that was posted in a later life. The ids that the lives draw are distinct. -/
theorem acknowledged_progress_survives (hP : PlatformLaws P) (M : Mongoose) (cfg : Config)
    (catalogue : List CoreLesson) (lives : List Life)
    (hfresh : (lives.flatMap Life.drawn).Nodup) (past : List Life) {seeds : StartSeeds}
    {as bs : List (Action Request)} (hlife : past ++ [.served seeds as] <+: lives)
    (hbs : bs <+: as) :
    let database := databaseAfterLives P M cfg catalogue
    let s₀ := started P catalogue seeds (database past)
    let pool := runMongo P M cfg s₀
    ∀ (i : ℕ) (t : Task Request (mongoStore P M) Response Unit) (w : ProgressWrite × Time),
      (pool bs).tasks[i]? = some t → PostsProgress P cfg t.request w →
      (∃ r ∈ t.outputs, r.status = 201) →
      (∀ j t', (pool as).tasks[j]? = some t' → (pool bs).tasks.length ≤ j →
        ShowsProgress P cfg (NotOlder P M cfg s₀ as i) w.1.key t'.request t'.outputs) ∧
      ∀ later seeds' as', past ++ [.served seeds as] ++ later ++ [.served seeds' as'] <+: lives →
        ∀ t' ∈ (servedPool P M cfg catalogue (database (past ++ [.served seeds as] ++ later)) seeds'
            as').tasks,
          ShowsProgress P cfg (fun r => NotOlder P M cfg s₀ as i r ∨
            r ∈ (later ++ [.served seeds' as']).flatMap Life.requests) w.1.key t'.request
            t'.outputs := by
  intro database s₀ pool i t w hi hw hanswered
  obtain ⟨r, hr, hstatus⟩ := hanswered
  have hdistinct : (s₀.progress.map ProgressRecord.key).Nodup := by
    have hpast := nodup_drawn_of_prefix ((List.prefix_append _ _).trans hlife) hfresh
    have hlives : ((database ([] ++ past)).progress.map ProgressRecord.key).Nodup :=
      (keptByWrites_distinct P cfg fun _ => True).lives hP hpast (fun _ _ => trivial) List.nodup_nil
    rw [progress_started]
    exact hlives
  obtain ⟨order, hlinear, hprefixes, -, hleaves⟩ :=
    linearization_of_lives hP M cfg catalogue hfresh hlife
  obtain ⟨order', hle, hlinear'⟩ := hprefixes bs hbs
  obtain ⟨before, hbefore, hrecords⟩ := records_of_acknowledged hlinear' hdistinct hi hw hr hstatus
  have hsince : ∀ {past'}, before ++ [(i, t.request)] <+: past' → past' <+: order →
      Records P cfg (NotOlder P M cfg s₀ as i) w.1.key
        (Pool.sequential (mongoMeaning P M cfg) s₀ past').progress := by
    rintro _ ⟨rest, rfl⟩ hpast'
    exact records_since hlinear hprefixes hpast' hrecords
  constructor
  · intro j t' ht' hj
    refine showsProgress_of_linearization hlinear ht' fun past' hpast' => ?_
    apply hsince
    · exact hbefore.trans (hlinear'.prefix_past hle hj hpast')
    · exact (List.prefix_append _ _).trans hpast'
  · -- the record that a life leaves is there when the next one starts
    intro later seeds' as' hlater t' ht'
    have hend := hsince (hbefore.trans hle) List.prefix_rfl
    rw [hleaves] at hend
    have hbetween := nodup_drawn_of_prefix ((List.prefix_append _ _).trans hlater) hfresh
    refine showsProgress_of_life hP hfresh hlater (fun r hr => ?_) ?_ t' ht'
    · rw [List.flatMap_append, List.flatMap_singleton]
      exact .inr (List.mem_append_right _ hr)
    · apply (keptByWrites_records P cfg _ w.1.key).lives hP hbetween
      · intro r hr
        rw [List.flatMap_append]
        exact .inr (List.mem_append_left _ hr)
      · exact hend.mono fun r hr => .inl hr

/-- Progress that is read after the server was killed and started again. -/
theorem progress_read_after_restart :
    let bearer := plainBearer "64b000000000000000000002" "ada@example.com" 0
    let registers := plainRegistration "ada" "ada@example.com" "secret1" "64b000000000000000000002"
    let posts := plainRequest .post ["api", "progress"] bearer
      (.obj [("lessonId", .str "l_conf_2"), ("completed", .bool true), ("score", .num 80)])
      "64b000000000000000000003"
    let reads := plainRequest .get ["api", "progress"] bearer .null "64b000000000000000000004"
    let as : List (Action Request) := .arrive registers :: List.replicate 3 (.resume 0) ++
      .arrive posts :: List.replicate 5 (.resume 1)
    let as' : List (Action Request) := .arrive reads :: List.replicate 3 (.resume 0)
    let database := databaseAfterLives plainPlatform plainMongoose plainConfig [smallTalk]
    let pool := servedPool plainPlatform plainMongoose plainConfig [smallTalk]
      (database [.served firstStart as]) laterStart as'
    let s₀ := started plainPlatform [smallTalk] firstStart (database [])
    ∃ t ∈ pool.tasks, t.outputs.map Response.status = [200] ∧
      ShowsProgress plainPlatform plainConfig
        (fun r => NotOlder plainPlatform plainMongoose plainConfig s₀ as 1 r ∨
          r ∈ [Life.served laterStart as'].flatMap Life.requests)
        ("64b000000000000000000002", "l_conf_2") t.request t.outputs := by
  intro bearer registers posts reads as as' database pool s₀
  let write : ProgressWrite × Time := (⟨"64b000000000000000000002", "l_conf_2", true, 80⟩, 0)
  have hposted : PostsProgress plainPlatform plainConfig posts write :=
    ⟨_, ⟨"l_conf_2", true, 80⟩, "64b000000000000000000002", rfl, rfl, by decide +kernel,
      by decide +kernel, by decide +kernel⟩
  have hread : pool.tasks[0]?.map (fun t => t.outputs.map Response.status) = some [200] := by
    decide +kernel
  have hwritten : (runMongo plainPlatform plainMongoose plainConfig s₀ as).tasks[1]?.map
      (fun t => t.outputs.map Response.status) = some [201] := by
    decide +kernel
  have hrequests : (runMongo plainPlatform plainMongoose plainConfig s₀ as).tasks.map
      Task.request = as.filterMap Pool.arrival := Pool.map_request_history as
  obtain ⟨t, ht, hstatus⟩ := Option.map_eq_some_iff.mp hwritten
  obtain ⟨t', ht', hstatus'⟩ := Option.map_eq_some_iff.mp hread
  have hrequest : t.request = posts := by
    have hsecond := congrArg (fun rs => rs[1]?) hrequests
    rw [List.getElem?_map, ht] at hsecond
    exact Option.some.inj hsecond
  have hcreated : ∃ r ∈ t.outputs, r.status = 201 := by
    refine List.mem_map.mp ?_
    rw [hstatus]
    exact List.mem_singleton.mpr rfl
  have hsurvives := acknowledged_progress_survives plain_platformLaws plainMongoose plainConfig
    [smallTalk] [.served firstStart as, .served laterStart as'] (by decide +kernel) []
    (List.prefix_append _ _) List.prefix_rfl 1 t write ht (hrequest ▸ hposted) hcreated
  exact ⟨t', List.mem_of_getElem? ht', hstatus',
    hsurvives.2 [] laterStart as' List.prefix_rfl t' (List.mem_of_getElem? ht')⟩

end LanguageGuru
