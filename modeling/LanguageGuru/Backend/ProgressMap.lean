import LanguageGuru.Backend.Interleavings
import LanguageGuru.Backend.ProgressViews

/-!
# Progress is a finite map

Under every interleaving of requests the progress list is the finite map that the accepted writes
build in the order in which they ran, and every learning route reports what the map holds.

## Main definitions

* `upserts`, `writeAll`: the writes among the logged calls, and the map they build
* `progressContract`: what each handler may do to the progress

## Main results

* `lookup_replay`: the progress list refines the map of the writes
* `serve_guarded`: every handler keeps the contract
* `progress_refines_map`: the invariant, the refinement, and the views, in every reachable state
-/

namespace LanguageGuru

open Process

/-! ## The map of the writes -/

/-- The writes among calls, each with the time it is stored under. -/
def upserts (cs : List StoreCall) : List (ProgressWrite × Time) :=
  cs.filterMap fun
    | .upsertProgress w now => some (w, now)
    | _ => none

/-- The map after one more write. -/
def writeOne (m : String × String → Option ProgressRecord) (w : ProgressWrite × Time) :
    String × String → Option ProgressRecord :=
  Function.update m w.1.key (some (w.1.record w.2))

/-- The finite map that writes build in order: the last write to a key wins. -/
def writeAll (ws : List (ProgressWrite × Time)) : String × String → Option ProgressRecord :=
  ws.foldl writeOne fun _ => none

section Map

variable {P : Platform} {s : MemoryState}

@[simp] theorem upserts_nil : upserts [] = [] := rfl

theorem upserts_append (cs cs' : List StoreCall) :
    upserts (cs ++ cs') = upserts cs ++ upserts cs' :=
  List.filterMap_append

theorem upserts_singleton_upsert (w : ProgressWrite) (now : Time) :
    upserts [.upsertProgress w now] = [(w, now)] := rfl

/-- Whether a call is a write of progress. -/
def StoreCall.isUpsert : StoreCall → Bool
  | .upsertProgress _ _ => true
  | _ => false

theorem upserts_singleton_other {c : StoreCall} (hc : c.isUpsert = false) : upserts [c] = [] := by
  cases c <;> first | rfl | cases hc

theorem writeAll_snoc (ws : List (ProgressWrite × Time)) (w : ProgressWrite × Time) :
    writeAll (ws ++ [w]) = writeOne (writeAll ws) w := by
  simp [writeAll, List.foldl_append]

theorem writeAll_eq_none {ws : List (ProgressWrite × Time)} {k : String × String}
    (h : ∀ w ∈ ws, w.1.key ≠ k) : writeAll ws k = none := by
  induction ws using List.reverseRecOn with
  | nil => rfl
  | append_singleton ws w ih =>
    have hne : k ≠ w.1.key := fun he => h w (by simp) he.symm
    rw [writeAll_snoc, writeOne, Function.update_of_ne hne]
    exact ih fun w' hw' => h w' (by simp [hw'])

/-- A write of the store is a write of the map. -/
theorem lookup_writeProgress (s : MemoryState) (w : ProgressWrite) (now : Time)
    (k : String × String) :
    Keyed.lookup ProgressRecord.key k (s.writeProgress w now).progress =
      writeOne (fun k => Keyed.lookup ProgressRecord.key k s.progress) (w, now) k := by
  have hover : ∀ p : ProgressRecord, p.key = w.key → (w.overwrite now p).key = w.key :=
    fun p hp => hp
  by_cases hk : k = w.key
  · -- the record at the key is overwritten with what a fresh one would hold
    subst hk
    rw [MemoryState.writeProgress, Keyed.lookup_upsert_self hover (key_record w now), writeOne,
      Function.update_self]
    cases hp : Keyed.lookup ProgressRecord.key w.key s.progress with
    | none => rfl
    | some p => exact congrArg some (overwrite_eq_record (Keyed.key_of_lookup hp))
  · rw [MemoryState.writeProgress, Keyed.lookup_upsert_other hover (key_record w now) hk, writeOne,
      Function.update_of_ne hk]

theorem progress_perform_other {c : StoreCall} (hc : c.isUpsert = false) (s : MemoryState) :
    ((memoryStore P).perform c s).2.progress = s.progress := by
  cases c <;> first | rfl | cases hc

/-- **The progress list refines the map of the writes**: after any calls it holds at every key
what the writes among them leave there. -/
theorem lookup_replay (hs : s.progress = []) (cs : List StoreCall) (k : String × String) :
    Keyed.lookup ProgressRecord.key k ((memoryStore P).replay s cs).progress =
      writeAll (upserts cs) k := by
  induction cs using List.reverseRecOn generalizing k with
  | nil => simp [hs, writeAll]
  | append_singleton cs c ih =>
    rw [Service.replay_snoc, upserts_append]
    cases hc : c.isUpsert with
    | false => rw [progress_perform_other hc, upserts_singleton_other hc, List.append_nil, ih]
    | true =>
      cases c with
      | upsertProgress w now =>
        -- the store after the earlier calls holds their map, and the write changes both alike
        rw [upserts_singleton_upsert, writeAll_snoc]
        refine (lookup_writeProgress _ w now k).trans ?_
        exact congrArg (fun m => writeOne m (w, now) k) (funext ih)
      | _ => cases hc

end Map

/-! ## The contract of the handlers -/

/-- The request is an accepted `POST /progress`, which writes `w`. -/
def PostsProgress (P : Platform) (cfg : Config) (req : Request) (w : ProgressWrite × Time) : Prop :=
  ∃ body value id, req.payload = .parsed body ∧ req.endpoint = some .postProgress ∧
    req.subject P cfg = some id ∧ progressSchema P body.orEmpty = .ok value ∧
    w = (⟨id, value.lessonId, value.completed, max 0 (min 100 value.score)⟩, req.seeds.storedAt)

/-- What a handler may have done so far: it wrote nothing, and did not answer a `POST /progress`
with 201; or it made one accepted write, and answered nothing but 201. -/
def ProgressTrace (P : Platform) (cfg : Config) (req : Request)
    (tr : List (Event StoreCall Response)) : Prop :=
  (upserts (Event.calls tr) = [] ∧
    (req.endpoint = some .postProgress → ∀ r ∈ Event.outputs tr, r.status ≠ 201)) ∨
  ∃ w, PostsProgress P cfg req w ∧ upserts (Event.calls tr) = [w] ∧
    ∀ r ∈ Event.outputs tr, r.status = 201

def progressContract (P : Platform) (cfg : Config) :
    Contract Request StoreCall Response MemoryState where
  Inv := ProgressInv
  Rely := Grows
  Allows := ProgressTrace P cfg
  refl := Grows.refl
  trans := Grows.trans

section Contract

variable {P : Platform} {cfg : Config} {s : MemoryState} {req : Request}

theorem progressTrace_nil : ProgressTrace P cfg req [] := .inl ⟨rfl, fun _ _ h => nomatch h⟩

/-- A trace with the writes `ws` and without an answer. -/
structure Unanswered (ws : List (ProgressWrite × Time))
    (tr : List (Event StoreCall Response)) : Prop where
  upserts : upserts (Event.calls tr) = ws
  outputs : Event.outputs tr = []

variable {ws : List (ProgressWrite × Time)} {tr : List (Event StoreCall Response)}

theorem unanswered_nil : Unanswered [] [] := ⟨rfl, rfl⟩

theorem Unanswered.called (h : Unanswered ws tr) (c : StoreCall) :
    Unanswered (ws ++ LanguageGuru.upserts [c]) (tr ++ [.called c]) := by
  constructor
  · rw [Event.calls_append, upserts_append, h.upserts]
    rfl
  · rw [Event.outputs_append, h.outputs]
    rfl

/-- A call that is not a write adds no write. -/
theorem Unanswered.read (h : Unanswered ws tr) {c : StoreCall} (hc : c.isUpsert = false) :
    Unanswered ws (tr ++ [.called c]) := by
  have hcalled := h.called c
  rwa [upserts_singleton_other hc, List.append_nil] at hcalled

theorem Unanswered.allowed (h : Unanswered [] tr) : (progressContract P cfg).Allows req tr := by
  refine Or.inl ⟨h.upserts, fun _ r hr => ?_⟩
  rw [h.outputs] at hr
  cases hr

/-- A write that the request asks for, and then perhaps the answer 201. -/
theorem Unanswered.allowed_write {w : ProgressWrite × Time} (h : Unanswered [w] tr)
    (hw : PostsProgress P cfg req w) :
    (progressContract P cfg).Allows req tr ∧
      ∀ b, (progressContract P cfg).Allows req (tr ++ [.sent ⟨201, b⟩]) := by
  refine ⟨Or.inr ⟨w, hw, h.upserts, fun r hr => ?_⟩, fun b => Or.inr ⟨w, hw, ?_, fun r hr => ?_⟩⟩
  · rw [h.outputs] at hr
    cases hr
  · rw [Event.calls_append]
    simpa using h.upserts
  · rw [Event.outputs_append, h.outputs] at hr
    obtain rfl := List.mem_singleton.mp hr
    rfl

/-- A call that is not a write keeps the invariant. -/
theorem progressInv_perform (h : ProgressInv s) {c : StoreCall} (hc : c.isUpsert = false) :
    ProgressInv ((memoryStore P).perform c s).2 :=
  progressInv_of_prefix h (grows_perform P c s).ids (grows_perform P c s).lessons
    (progress_perform_other hc s)

/-- An awaited call that is not a write, after a trace that goes on to be allowed. -/
theorem guarded_await (hs : ProgressInv s) {c : StoreCall} (hc : c.isUpsert = false)
    (hallows : (progressContract P cfg).Allows req (tr ++ [.called c]))
    {k : Except Failure (Answer c) → Handler}
    (hk : ∀ s', ProgressInv s' → Grows s s' → Grows ((memoryStore P).perform c s).2 s' →
      (k ((memoryStore P).view c ((memoryStore P).perform c s).1 s')).Guarded (memoryStore P)
        (progressContract P cfg) req (tr ++ [.called c]) s') :
    (Program.call c k).Guarded (memoryStore P) (progressContract P cfg) req tr s := by
  -- the call itself grows the state, and then the others do
  refine ⟨hallows, progressInv_perform hs hc, grows_perform P c s, ?_⟩
  exact fun s' hi hr => hk s' hi ((grows_perform P c s).trans hr) hr

/-- An answer other than 201 to a request that wrote nothing. -/
theorem guarded_sendJson (htr : Unanswered [] tr) {status : ℕ} (hstatus : status ≠ 201)
    (b : Body) :
    (sendJson status b).Guarded (memoryStore P) (progressContract P cfg) req tr s := by
  refine ⟨Or.inl ⟨?_, fun _ r hr => ?_⟩, trivial⟩
  · rw [Event.calls_append]
    simpa using htr.upserts
  · rw [Event.outputs_append, htr.outputs] at hr
    obtain rfl := List.mem_singleton.mp hr
    exact hstatus

/-- The authentication middleware hands on the user with the id of the token. -/
theorem guarded_authMiddleware {next : User → Handler} (hs : ProgressInv s)
    (hnext : ∀ user s' tr, ProgressInv s' → req.subject P cfg = some user.id →
      user.id ∈ s'.users.map User.id → Unanswered [] tr →
      (next user).Guarded (memoryStore P) (progressContract P cfg) req tr s') :
    (authMiddleware P cfg req next).Guarded (memoryStore P) (progressContract P cfg) req [] s := by
  unfold authMiddleware
  cases hb : bearerToken (req.authorization.getD "") with
  | none => exact guarded_sendJson unanswered_nil (by decide) _
  | some token =>
    dsimp only
    split_ifs with ht
    · exact guarded_sendJson unanswered_nil (by decide) _
    · unfold authenticate
      cases hv : P.jwtVerify token cfg.jwtSecret req.seeds.verifiedAt with
      | none => exact guarded_sendJson unanswered_nil (by decide) _
      | some decoded =>
        have hsubject : req.subject P cfg = some decoded.sub := by
          simp [Request.subject, hb, ht, hv]
        have htr := unanswered_nil.read (c := .findUserById decoded.sub) rfl
        refine guarded_await hs rfl htr.allowed fun s' hi hg _ => ?_
        rcases view_findUserById (P := P) hg decoded.sub with hview | ⟨u, hview, hmem, hid⟩
        · rw [hview]
          exact guarded_sendJson htr (by decide) _
        · rw [hview]
          exact hnext u s' _ hi (hsubject.trans (congrArg some hid.symm))
            (List.mem_map_of_mem hmem) htr

/-- After the write of a request nothing but its answer 201 follows. -/
theorem guarded_written {user : User} {w : ProgressWrite × Time} (hs : ProgressInv s)
    (hw : PostsProgress P cfg req w) (htr : Unanswered [w] tr) :
    (do
      let progress : List ProgressRecord ← awaitStore (.getProgressForUser user.id)
      sendJson 201 (.progress (formatProgress progress)) : Handler).Guarded (memoryStore P)
      (progressContract P cfg) req tr s := by
  rw [Program.await_bind]
  have htr' := htr.read (c := .getProgressForUser user.id) rfl
  refine guarded_await hs rfl (htr'.allowed_write hw).1 fun s' hs' _ _ => ?_
  exact ⟨(htr'.allowed_write hw).2 _, trivial⟩

/-- The handler of `POST /progress` writes once, for the user of the token, when the body is
accepted and the lesson exists. -/
theorem guarded_postProgress {body : Json} {user : User} (hp : req.payload = .parsed body)
    (he : req.endpoint = some .postProgress) (hs : ProgressInv s)
    (hsubject : req.subject P cfg = some user.id) (huser : user.id ∈ s.users.map User.id)
    (htr : Unanswered [] tr) :
    (postProgress P req body user).Guarded (memoryStore P) (progressContract P cfg) req tr s := by
  unfold postProgress
  cases hv : progressSchema P body.orEmpty with
  | error message => exact guarded_sendJson htr (by decide) _
  | ok value =>
    dsimp only
    rw [Program.await_bind]
    have htr₁ := htr.read (c := .getLessonById value.lessonId) rfl
    -- by the time the lesson is answered, other requests may have left the state `s₁`
    refine guarded_await hs rfl htr₁.allowed fun s₁ hs₁ hg₁ _ => ?_
    change (postProgressFound req user value (s.lessonById value.lessonId)).Guarded _ _ _ _ _
    cases hl : s.lessonById value.lessonId with
    | none => exact guarded_sendJson htr₁ (by decide) _
    | some lesson =>
      -- lessons and users are never taken away, so that the record may still name them
      have hlesson : ∃ l ∈ s₁.lessons, l.id = value.lessonId := by
        rw [hg₁.lessons]
        exact ⟨lesson, List.mem_of_find?_eq_some hl, by simpa using List.find?_some hl⟩
      have hscore := progressWrite_score user value
      have hposts : PostsProgress P cfg req (progressWrite user value, req.seeds.storedAt) :=
        ⟨body, value, user.id, hp, he, hsubject, hv, rfl⟩
      have htr₂ := htr₁.called (.upsertProgress (progressWrite user value) req.seeds.storedAt)
      simp only [postProgressFound]
      rw [Program.await_bind]
      refine ⟨(htr₂.allowed_write hposts).1, ?_, grows_perform P _ s₁, fun s₂ hs₂ _ => ?_⟩
      · exact progressInv_writeProgress hs₁ (hg₁.ids.subset huser) hlesson hscore
      · cases (memoryStore P).view (.upsertProgress (progressWrite user value) req.seeds.storedAt)
          ((memoryStore P).perform (.upsertProgress (progressWrite user value)
            req.seeds.storedAt) s₁).1 s₂ with
        | error failure => exact trivial
        | ok record => exact guarded_written hs₂ hposts htr₂

/-- **Every handler keeps the contract.** -/
theorem serve_guarded (hs : ProgressInv s) :
    (serve P cfg req).Guarded (memoryStore P) (progressContract P cfg) req [] s := by
  by_cases he : req.endpoint = some .postProgress
  · unfold serve
    cases hp : req.payload with
    | refused status => exact guarded_sendJson unanswered_nil (by decide) _
    | parsed body =>
      simp only [routers, he]
      exact guarded_authMiddleware hs fun user s' tr hs' hsubject huser htr =>
        guarded_postProgress hp he hs' hsubject huser htr
  · -- the other routes make no writes at all
    have hother : ∀ c : StoreCall, (∃ e, req.endpoint = some e ∧ e.mayCall c = true) →
        c.isUpsert = false := by
      rintro c ⟨e, he', hc⟩
      cases c with
      | upsertProgress w now =>
        cases e <;> first | exact absurd he' he | cases hc
      | _ => rfl
    have hallows : ∀ tr, upserts (Event.calls tr) = [] →
        (progressContract P cfg).Allows req tr :=
      fun tr h => Or.inl ⟨h, fun he' => absurd he' he⟩
    refine (serve_within P cfg req).guarded
      (fun c s hc hs => ⟨progressInv_perform hs (hother c hc), grows_perform P c s⟩) hallows
      (fun tr c hc h => ?_) (fun tr o _ h => ?_) rfl hs
    · rw [Event.calls_append, upserts_append, h]
      exact upserts_singleton_other (hother c hc)
    · rw [Event.calls_append]
      simpa using h

end Contract


/-! ## Reachable states -/

/-- **Progress refines a finite map, and all views of it agree.** In every state that the API
reaches: the progress list is well formed; it holds at every user and lesson what the writes left
there, in the order in which they ran; every write is the accepted write of a `POST /progress`,
which is answered with 201 if at all, and a request answered otherwise wrote nothing; and every
learning route reports the map, which has nothing to say about a lesson without a write. -/
theorem progress_refines_map (P : Platform) (cfg : Config) (catalogue : List CoreLesson)
    (salt : String) (now : Time) (as : List (Action Request)) :
    let pool := runApi P cfg (createMemoryStore P catalogue salt now) as
    let m := writeAll (upserts pool.calls)
    ProgressInv pool.state ∧
    (∀ k, Keyed.lookup ProgressRecord.key k pool.state.progress = m k) ∧
    (∀ w ∈ upserts pool.calls, ∃ t ∈ pool.tasks, PostsProgress P cfg t.request w) ∧
    (∀ i t, pool.tasks[i]? = some t →
      (upserts (pool.callsOf i) = [] ∧
        (t.request.endpoint = some .postProgress → ∀ r ∈ t.outputs, r.status ≠ 201)) ∨
      ∃ w, PostsProgress P cfg t.request w ∧ upserts (pool.callsOf i) = [w] ∧
        ∀ r ∈ t.outputs, r.status = 201) ∧
    (∀ user, Reports P cfg pool.state user fun lessonId => reportOf (m (user.id, lessonId))) ∧
    (∀ userId lessonId, (∀ w ∈ upserts pool.calls, w.1.key ≠ (userId, lessonId)) →
      reportOf (m (userId, lessonId)) = (false, none)) := by
  intro pool m
  have hinit : ProgressInv (createMemoryStore P catalogue salt now) := by
    constructor <;> simp [createMemoryStore]
  have hsound : pool.Sound (progressContract P cfg) :=
    Pool.sound_run (K := progressContract P cfg) (fun req s hs => serve_guarded hs)
      (fun req => progressTrace_nil) hinit as
  have hlogged : pool.Logged := Pool.logged_run (serve P cfg) _ as
  have hmap : ∀ k, Keyed.lookup ProgressRecord.key k pool.state.progress = m k := fun k => by
    have hreplay : pool.state = (memoryStore P).replay (createMemoryStore P catalogue salt now)
        pool.calls := Pool.state_eq_replay (serve P cfg) _ as
    rw [hreplay]
    exact lookup_replay rfl pool.calls k
  have htask : ∀ i t, pool.tasks[i]? = some t → ProgressTrace P cfg t.request t.trace ∧
      pool.callsOf i = Event.calls t.trace := fun i t ht =>
    ⟨hsound.allows t (List.mem_of_getElem? ht), hlogged.calls i t ht⟩
  refine ⟨hsound.inv, hmap, fun w hw => ?_, fun i t ht => ?_, fun user => ?_, ?_⟩
  · -- the write is a call of a task, whose trace admits no other write than its own
    obtain ⟨c, hc, hcw⟩ := List.mem_filterMap.mp hw
    obtain ⟨i, t, ht, hci⟩ := hlogged.exists_callsOf hc
    obtain ⟨htrace, hcalls⟩ := htask i t ht
    have hmem : w ∈ upserts (pool.callsOf i) := List.mem_filterMap.mpr ⟨c, hci, hcw⟩
    rw [hcalls] at hmem
    rcases htrace with ⟨hnone, -⟩ | ⟨w', hw', hone, -⟩
    · rw [hnone] at hmem
      cases hmem
    · rw [hone] at hmem
      obtain rfl := List.mem_singleton.mp hmem
      exact ⟨_, List.mem_of_getElem? ht, hw'⟩
  · obtain ⟨htrace, hcalls⟩ := htask i t ht
    rw [hcalls]
    exact htrace
  · have hreport : (fun lessonId => reportOf (m (user.id, lessonId))) =
        pool.state.report user := funext fun lessonId => by rw [MemoryState.report, hmap]
    rw [hreport]
    exact reports_of_progressInv hsound.inv user
  · intro userId lessonId hnone
    have hm : m (userId, lessonId) = none := writeAll_eq_none hnone
    rw [hm]
    rfl

end LanguageGuru
