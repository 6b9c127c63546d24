import LanguageGuru.Backend.Content
import LanguageGuru.Backend.PlainPlatform
import LanguageGuru.Frontend.ClientServer

/-!
# The client converges to the server

A list of the client is replaced by every response that carries it, in the order of delivery, and
the responses show the server at the moments at which their requests were handled. So the client
may be left with an old list: responses that overtake each other are not put back in order. Once
nothing is in flight the client agrees with the server when no submission was handled after the
responses that were delivered last. This is so when, for each of the two lists, the response that
was delivered last is the one that was handled last among those that carry the list, since a
submission that was answered fetches the lessons again.

## Main definitions

* `ClientServer.succeeds`: every request that the server handles succeeds
* `ClientServer.Quiet`, `ClientServer.UpToDate`: nothing is in flight; no submission was handled
  after the responses whose lists are shown
* `ClientServer.ShowsLatest`: the lists shown are the ones handled last
* `Sound`, `Refetched`: the invariant

## Main results

* `client_converges`: the client agrees with the server
* `overtaken_response_shown`: a response that was overtaken leaves an old list
-/

namespace LanguageGuru

open Process

/-- The thunk at a position waits for the response to its request. -/
def Client.Awaits (c : Client) (i : ℕ) (call : ApiCall) (token : Option String) : Prop :=
  c.thunks[i]? = some (.awaitingApi call token)

theorem Client.Awaits.unique {c : Client} {i : ℕ} {call call' : ApiCall} {tk tk' : Option String}
    (h : c.Awaits i call tk) (h' : c.Awaits i call' tk') : call' = call ∧ tk' = tk := by
  rw [Client.Awaits] at h h'
  rw [h] at h'
  simpa [eq_comm] using h'

namespace ClientServer

variable (P : Platform) (cfg : Config) (sys : ClientServer)

/-- The request that the server handles, if it handles one, succeeds. -/
def succeeds : SessionEvent → Bool
  | .handle i ip seeds =>
    match sys.client.thunks[i]? with
    | some (.awaitingApi call token) =>
      (sys.server.respond P cfg (call.request token ip seeds)).all Response.ok
    | _ => true
  | _ => true

/-- Nothing is in flight. -/
def Quiet : Prop := ∀ thunk ∈ sys.client.thunks, thunk.awaitsApi = false

instance : Decidable sys.Quiet := inferInstanceAs (Decidable (∀ _ ∈ _, _))

/-- No submission was handled after the responses whose lists are shown; the response whose progress
is shown may be that of a submission. -/
structure UpToDate : Prop where
  items : ∀ k ∈ sys.shownItems, ∀ i < sys.client.thunks.length, ∀ a ∈ sys.answers i,
    a.call.isWrite = true → a.number < k
  progress : ∀ k ∈ sys.shownProgress, ∀ i < sys.client.thunks.length, ∀ a ∈ sys.answers i,
    a.call.isWrite = true → a.number ≤ k

/-- Each list shown comes from the response that the server sent last among the responses with that
list. -/
structure ShowsLatest : Prop where
  items : ∀ i < sys.client.thunks.length, ∀ a ∈ sys.answers i, a.call = .fetchLessons →
    ∃ k ∈ sys.shownItems, a.number ≤ k
  progress : ∀ i < sys.client.thunks.length, ∀ a ∈ sys.answers i, a.call ≠ .fetchLessons →
    ∃ k ∈ sys.shownProgress, a.number ≤ k

variable {sys} in
theorem Quiet.not_awaits (h : sys.Quiet) {i : ℕ} {call : ApiCall} {tk : Option String} :
    ¬ sys.client.Awaits i call tk := fun hi => by
  have hthunk := h _ (List.mem_of_getElem? hi)
  cases hthunk

variable {P cfg sys} in
theorem ok_of_succeeds {i : ℕ} {ip : String} {seeds : Seeds} {call : ApiCall}
    {tk : Option String} {response : Response} (h : sys.succeeds P cfg (.handle i ip seeds) = true)
    (hawaits : sys.client.Awaits i call tk)
    (hr : (sys.server.respond P cfg (call.request tk ip seeds)).head? = some response) :
    response.ok = true := by
  rw [Client.Awaits] at hawaits
  rw [succeeds, hawaits] at h
  exact List.all_eq_true.mp h response (List.mem_of_mem_head? hr)

/-- Some response with the progress list was sent. -/
def ProgressAnswered : Prop :=
  ∃ i < sys.client.thunks.length, ∃ a ∈ sys.answers i, a.call ≠ .fetchLessons

instance : Decidable sys.ProgressAnswered :=
  inferInstanceAs (Decidable (∃ i < _, ∃ _ ∈ _, _))

/-- The client agrees with the server on the progress of the user: it shows the progress list of
the server, and every lesson with the completion and the score that the server holds for it. -/
structure AgreesOn (userId : String) : Prop where
  progress : sys.client.state.lessons.progress = sys.server.progressList userId
  items : ∀ l ∈ sys.client.state.lessons.items, (l.completed, l.score) =
    reportOf (Keyed.lookup ProgressRecord.key (userId, l.id) sys.server.progress)

/-! ## The invariant -/

/-- Every write that the server has handled has a smaller number. -/
def WritesBefore (n : ℕ) : Prop :=
  ∀ i a, sys.answers i = some a → a.call.isWrite = true → a.number < n

/-- The requests carry the token, the responses carry the lists of the user at the moments at which
the requests were handled, and the client shows the lists of the responses that it is said to
show. -/
structure Sound (userId token : String) : Prop where
  token_eq : sys.client.state.auth.token = some token
  sent : ∀ i call tk, sys.client.Awaits i call tk → tk = some token
  fresh : ∀ i, sys.client.thunks.length ≤ i → sys.answers i = none
  calls : ∀ i call tk a, sys.client.Awaits i call tk →
    sys.answers i = some a → a.call = call
  numbers : ∀ i a, sys.answers i = some a → a.number < sys.handled
  ok : ∀ i a, sys.answers i = some a → a.response.ok = true
  lessons : ∀ i a, sys.answers i = some a → a.call = .fetchLessons →
    ∃ ls, a.response.body = .lessons ls ∧
      (sys.WritesBefore a.number → ls = sys.server.lessonList userId)
  progress : ∀ i a, sys.answers i = some a → a.call ≠ .fetchLessons →
    ∃ ps, a.response.body = .progress ps ∧
      (sys.WritesBefore (a.number + 1) → ps = sys.server.progressList userId)
  noItems : sys.shownItems = none → sys.client.state.lessons.items = []
  shownItems : ∀ k, sys.shownItems = some k → ∃ i a, sys.answers i = some a ∧
    a.call = .fetchLessons ∧ a.number = k ∧
    a.response.body = .lessons sys.client.state.lessons.items
  delivered : sys.shownProgress = none → ∀ i a, sys.answers i = some a →
    a.call ≠ .fetchLessons → ∃ tk, sys.client.Awaits i a.call tk
  shownProgress : ∀ k, sys.shownProgress = some k → ∃ i a, sys.answers i = some a ∧
    a.call ≠ .fetchLessons ∧ a.number = k ∧
    a.response.body = .progress sys.client.state.lessons.progress

/-- A thunk fetches the lessons after the request with number `n` was handled. -/
def FetchesAfter (n j : ℕ) : Prop :=
  (∃ tk, sys.client.Awaits j .fetchLessons tk ∧ sys.answers j = none) ∨
    ∃ a, sys.answers j = some a ∧ a.call = .fetchLessons ∧ n < a.number

/-- A write that was handled is still to be delivered, or a thunk fetches the lessons after it. -/
def Refetched : Prop :=
  ∀ i a, sys.answers i = some a → a.call.isWrite = true →
    (∃ tk, sys.client.Awaits i a.call tk) ∨
      ∃ j, sys.FetchesAfter a.number j

variable {P cfg sys} {userId token : String}

theorem Sound.lt_of_answered (h : sys.Sound userId token) {i : ℕ} {a : Answered}
    (ha : sys.answers i = some a) : i < sys.client.thunks.length := by
  by_contra hle
  simp [h.fresh i (Nat.le_of_not_lt hle)] at ha

/-! ## Sending a request -/

/-- The client sends one more request, and shows what it showed. -/
structure Sends (c c' : Client) (call : ApiCall) : Prop where
  thunks : c'.thunks = c.thunks ++ [.awaitingApi call c.state.auth.token]
  token : c'.state.auth.token = c.state.auth.token
  items : c'.state.lessons.items = c.state.lessons.items
  progress : c'.state.lessons.progress = c.state.lessons.progress

theorem Sends.awaiting {c c' : Client} {call : ApiCall} (h : Sends c c' call) {i : ℕ}
    {call' : ApiCall} {tk : Option String} :
    c'.Awaits i call' tk ↔
      c.Awaits i call' tk ∨
        i = c.thunks.length ∧ call' = call ∧ tk = c.state.auth.token := by
  rw [Client.Awaits, Client.Awaits, h.thunks]
  -- an old thunk, the new one, or no thunk at all
  rcases Nat.lt_trichotomy i c.thunks.length with hi | rfl | hi
  · rw [List.getElem?_append_left hi]
    constructor
    · exact .inl
    · rintro (h | ⟨rfl, -⟩)
      · exact h
      · exact absurd hi (lt_irrefl _)
  · simp [eq_comm]
  · have hnone : ∀ xs : List Thunk, xs.length ≤ i → xs[i]? = none := fun _ =>
      List.getElem?_eq_none
    rw [hnone _ (by simp; omega), hnone _ hi.le]
    simp only [reduceCtorEq, false_or, false_iff, not_and]
    omega

theorem Sound.sends (h : sys.Sound userId token) {c' : Client} {call : ApiCall}
    (hc : Sends sys.client c' call) : Sound { sys with client := c' } userId token where
  token_eq := hc.token.trans h.token_eq
  sent i call' tk hi := by
    rcases hc.awaiting.mp hi with hi | ⟨-, -, rfl⟩
    · exact h.sent i call' tk hi
    · exact h.token_eq
  fresh i hi := h.fresh i (by
    have hlen : c'.thunks.length = sys.client.thunks.length + 1 := by simp [hc.thunks]
    simp only [hlen] at hi
    omega)
  calls i call' tk a hi ha := by
    rcases hc.awaiting.mp hi with hi | ⟨rfl, -, -⟩
    · exact h.calls i call' tk a hi ha
    · simp [h.fresh _ le_rfl] at ha
  numbers := h.numbers
  ok := h.ok
  lessons := h.lessons
  progress := h.progress
  noItems hnone := hc.items.trans (h.noItems hnone)
  shownItems k hk := by
    rw [hc.items]
    exact h.shownItems k hk
  delivered hnone i a ha hcall := by
    obtain ⟨tk, hi⟩ := h.delivered hnone i a ha hcall
    exact ⟨tk, hc.awaiting.mpr (.inl hi)⟩
  shownProgress k hk := by
    rw [hc.progress]
    exact h.shownProgress k hk

theorem FetchesAfter.sends {n j : ℕ} (h : sys.FetchesAfter n j) {c' : Client} {call : ApiCall}
    (hc : Sends sys.client c' call) : FetchesAfter { sys with client := c' } n j := by
  rcases h with ⟨tk, hj, hnone⟩ | h
  · exact .inl ⟨tk, hc.awaiting.mpr (.inl hj), hnone⟩
  · exact .inr h

theorem Refetched.sends (h : sys.Refetched) {c' : Client} {call : ApiCall}
    (hc : Sends sys.client c' call) : Refetched { sys with client := c' } := by
  intro i a ha hw
  rcases h i a ha hw with ⟨tk, hi⟩ | ⟨j, hj⟩
  · exact .inl ⟨tk, hc.awaiting.mpr (.inl hi)⟩
  · exact .inr ⟨j, hj.sends hc⟩

/-! ## Handling a request -/

/-- The state after the server has handled the request `call` of the thunk `i`. -/
def answered (sys : ClientServer) (i : ℕ) (call : ApiCall) (response : Response)
    (server : MemoryState) : ClientServer :=
  { sys with
    server := server
    answers := Function.update sys.answers i (some ⟨call, sys.handled, response⟩)
    handled := sys.handled + 1 }

theorem handle_cases (P : Platform) (cfg : Config) (sys : ClientServer) (i : ℕ) (ip : String)
    (seeds : Seeds) :
    sys.handle P cfg i ip seeds = sys ∨
      ∃ call tk response, sys.client.Awaits i call tk ∧ sys.answers i = none ∧
        (sys.server.respond P cfg (call.request tk ip seeds)).head? = some response ∧
        sys.handle P cfg i ip seeds =
          sys.answered i call response (sys.server.next P cfg (call.request tk ip seeds)) := by
  unfold handle
  split
  · rename_i call tk hthunk hnone
    dsimp only
    cases hr : (sys.server.respond P cfg (call.request tk ip seeds)).head? with
    | none => exact .inl rfl
    | some response => exact .inr ⟨call, tk, response, hthunk, hnone, hr, rfl⟩
  · exact .inl rfl

section Handle

variable {i : ℕ} {call : ApiCall} {response : Response} {server : MemoryState}

theorem answers_answered (hnone : sys.answers i = none) {j : ℕ} {b : Answered} :
    (sys.answered i call response server).answers j = some b ↔
      (j = i ∧ b = ⟨call, sys.handled, response⟩) ∨ sys.answers j = some b := by
  by_cases hj : j = i
  · subst hj
    simp [answered, hnone, eq_comm]
  · simp [answered, hj]

/-- A later number is only before the writes when the request handled was none. -/
theorem WritesBefore.of_answered (hnone : sys.answers i = none) {n : ℕ}
    (h : (sys.answered i call response server).WritesBefore n) :
    sys.WritesBefore n ∧ (call.isWrite = true → sys.handled < n) :=
  ⟨fun j b hb hw => h j b ((answers_answered hnone).mpr (.inr hb)) hw,
    fun hw => h i ⟨call, sys.handled, response⟩ ((answers_answered hnone).mpr (.inl ⟨rfl, rfl⟩)) hw⟩

theorem Sound.answered (h : sys.Sound userId token) {tk : Option String}
    (hawaits : sys.client.Awaits i call tk) (hnone : sys.answers i = none)
    (hok : response.ok = true)
    (hcases : (call = .fetchLessons ∧ response = ⟨200, .lessons (server.lessonList userId)⟩ ∧
        server = sys.server) ∨
      (call ≠ .fetchLessons ∧ response.body = .progress (server.progressList userId) ∧
        (call.isWrite = false → server = sys.server))) :
    (sys.answered i call response server).Sound userId token := by
  have hread : call.isWrite = false → server = sys.server := fun hw => by
    rcases hcases with ⟨-, -, hs⟩ | ⟨-, -, hs⟩
    · exact hs
    · exact hs hw
  have hkeep : ∀ {j b}, sys.answers j = some b →
      (sys.answered i call response server).answers j = some b :=
    fun hb => (answers_answered hnone).mpr (.inr hb)
  -- a list read earlier that no write has followed is still what the server would send
  have hearlier : ∀ {j b n}, sys.answers j = some b → n ≤ b.number + 1 →
      (sys.answered i call response server).WritesBefore n →
      sys.WritesBefore n ∧ server = sys.server := by
    intro j b n hb hn hw
    obtain ⟨hw, hlater⟩ := hw.of_answered hnone
    have hwrite : call.isWrite = false := by
      by_contra hne
      have hlt := h.numbers j b hb
      have hle := hlater (by simpa using hne)
      omega
    exact ⟨hw, hread hwrite⟩
  refine
    { token_eq := h.token_eq
      sent := h.sent
      fresh := fun j hj => ?_
      calls := fun j call' tk' b hj hb => ?_
      numbers := fun j b hb => ?_
      ok := fun j b hb => ?_
      lessons := fun j b hb hcall => ?_
      progress := fun j b hb hcall => ?_
      noItems := h.noItems
      shownItems := fun k hk => ?_
      delivered := fun hshown j b hb hcall => ?_
      shownProgress := fun k hk => ?_ }
  · -- a thunk that is not sent yet is not the one whose request is answered here
    have hne : j ≠ i := by
      rintro rfl
      exact absurd ((List.getElem?_eq_none hj).symm.trans hawaits) nofun
    simp only [ClientServer.answered, Function.update_of_ne hne]
    exact h.fresh j hj
  · rcases (answers_answered hnone).mp hb with ⟨rfl, rfl⟩ | hb
    · exact (Client.Awaits.unique hj hawaits).1
    · exact h.calls j call' tk' b hj hb
  · rcases (answers_answered hnone).mp hb with ⟨rfl, rfl⟩ | hb
    · exact Nat.lt_succ_self _
    · exact (h.numbers j b hb).trans (Nat.lt_succ_self _)
  · rcases (answers_answered hnone).mp hb with ⟨rfl, rfl⟩ | hb
    · exact hok
    · exact h.ok j b hb
  · rcases (answers_answered hnone).mp hb with ⟨rfl, rfl⟩ | hb
    · rcases hcases with ⟨-, rfl, -⟩ | ⟨hne, -⟩
      · exact ⟨_, rfl, fun _ => rfl⟩
      · exact absurd hcall hne
    · obtain ⟨ls, hbody, hcurrent⟩ := h.lessons j b hb hcall
      refine ⟨ls, hbody, fun hw => ?_⟩
      obtain ⟨hw, hserver⟩ := hearlier hb (Nat.le_succ _) hw
      exact (hcurrent hw).trans (by rw [ClientServer.answered, hserver])
  · rcases (answers_answered hnone).mp hb with ⟨rfl, rfl⟩ | hb
    · rcases hcases with ⟨heq, -⟩ | ⟨-, hbody, -⟩
      · exact absurd heq hcall
      · exact ⟨_, hbody, fun _ => rfl⟩
    · obtain ⟨ps, hbody, hcurrent⟩ := h.progress j b hb hcall
      refine ⟨ps, hbody, fun hw => ?_⟩
      obtain ⟨hw, hserver⟩ := hearlier hb le_rfl hw
      exact (hcurrent hw).trans (by rw [ClientServer.answered, hserver])
  · obtain ⟨j, b, hb, hrest⟩ := h.shownItems k hk
    exact ⟨j, b, hkeep hb, hrest⟩
  · rcases (answers_answered hnone).mp hb with ⟨rfl, rfl⟩ | hb
    · exact ⟨tk, hawaits⟩
    · exact h.delivered hshown j b hb hcall
  · obtain ⟨j, b, hb, hrest⟩ := h.shownProgress k hk
    exact ⟨j, b, hkeep hb, hrest⟩

/-- The request that is handled is the write itself, or fetches the lessons after the writes. -/
theorem Refetched.answered (h : sys.Refetched) (hsound : sys.Sound userId token)
    {tk : Option String} (hawaits : sys.client.Awaits i call tk) (hnone : sys.answers i = none) :
    (sys.answered i call response server).Refetched := by
  intro j b hb' hw
  rcases (answers_answered hnone).mp hb' with ⟨rfl, rfl⟩ | hb
  · exact .inl ⟨tk, hawaits⟩
  · have hlt := hsound.numbers j b hb
    rcases h j b hb hw with hj | ⟨l, ⟨tk', hl, hlnone⟩ | ⟨a, ha, hcall, hlt⟩⟩
    · exact .inl hj
    · refine .inr ⟨l, ?_⟩
      -- the fetch that was awaited is the one answered here, or still awaited
      by_cases hli : l = i
      · subst hli
        refine .inr ⟨⟨call, sys.handled, response⟩, (answers_answered hnone).mpr (.inl ⟨rfl, rfl⟩),
          (hawaits.unique hl).1.symm, hlt⟩
      · refine .inl ⟨tk', hl, ?_⟩
        simpa only [ClientServer.answered, Function.update_of_ne hli] using hlnone
    · exact .inr ⟨l, .inr ⟨a, (answers_answered hnone).mpr (.inr ha), hcall, hlt⟩⟩

end Handle

/-! ## Delivering a response -/

theorem deliver_cases (sys : ClientServer) (i : ℕ) :
    sys.deliver i = sys ∨
      ∃ call tk a, sys.client.Awaits i call tk ∧ sys.answers i = some a ∧
        sys.deliver i =
          { sys with
            client := (sys.client.wait i .settled).received tk call
              (a.response.decode call.failure)
            shownItems := if call = .fetchLessons then some a.number else sys.shownItems
            shownProgress :=
              if call = .fetchLessons then sys.shownProgress else some a.number } := by
  unfold deliver
  split
  · rename_i call tk a hthunk ha
    refine .inr ⟨call, tk, a, hthunk, ha, ?_⟩
    simp only [Client.apiAnswered, hthunk]
  · exact .inl rfl

/-- A thunk is settled, and the session goes on. -/
structure Settles (c c' : Client) (i : ℕ) : Prop where
  thunks : c'.thunks = c.thunks.set i .settled
  token : c'.state.auth.token = c.state.auth.token

theorem Settles.awaiting {c c' : Client} {i : ℕ} (h : Settles c c' i) {j : ℕ} {call : ApiCall}
    {tk : Option String} : c'.Awaits j call tk ↔ j ≠ i ∧ c.Awaits j call tk := by
  rw [Client.Awaits, Client.Awaits, h.thunks, List.getElem?_set]
  by_cases hj : i = j
  · subst hj
    by_cases hlt : i < c.thunks.length <;> simp [hlt]
  · simp [hj, Ne.symm hj]

section Deliver

variable {i : ℕ} {a : Answered} {c' : Client}

/-- The invariant but for what is shown. -/
theorem Sound.settles (h : sys.Sound userId token) (hc : Settles sys.client c' i)
    {shownItems shownProgress : Option ℕ}
    (hdelivered : shownProgress = none → sys.shownProgress = none ∧
      ∀ b, sys.answers i = some b → b.call = .fetchLessons)
    (hnoItems : shownItems = none → c'.state.lessons.items = [])
    (hitems : ∀ k, shownItems = some k → ∃ j b, sys.answers j = some b ∧
      b.call = .fetchLessons ∧ b.number = k ∧ b.response.body = .lessons c'.state.lessons.items)
    (hprogress : ∀ k, shownProgress = some k → ∃ j b, sys.answers j = some b ∧
      b.call ≠ .fetchLessons ∧ b.number = k ∧
      b.response.body = .progress c'.state.lessons.progress) :
    Sound { sys with client := c', shownItems, shownProgress } userId token where
  token_eq := hc.token.trans h.token_eq
  sent j call tk hj := h.sent j call tk (hc.awaiting.mp hj).2
  fresh j hj := h.fresh j (by simpa [hc.thunks] using hj)
  calls j call tk b hj hb := h.calls j call tk b (hc.awaiting.mp hj).2 hb
  numbers := h.numbers
  ok := h.ok
  lessons := h.lessons
  progress := h.progress
  noItems := hnoItems
  shownItems := hitems
  delivered hnone j b hb hcall := by
    -- the thunk that is settled fetched the lessons, so it is another one
    obtain ⟨hshown, hi⟩ := hdelivered hnone
    obtain ⟨tk, hj⟩ := h.delivered hshown j b hb hcall
    refine ⟨tk, hc.awaiting.mpr ⟨?_, hj⟩⟩
    rintro rfl
    exact hcall (hi b hb)
  shownProgress := hprogress

theorem Sound.showsLessons (h : sys.Sound userId token) (ha : sys.answers i = some a)
    (hcall : a.call = .fetchLessons) (hc : Settles sys.client c' i)
    (hitems : a.response.body = .lessons c'.state.lessons.items)
    (hprogress : c'.state.lessons.progress = sys.client.state.lessons.progress) :
    Sound { sys with client := c', shownItems := some a.number } userId token := by
  refine h.settles hc (fun hnone => ⟨hnone, fun b hb => ?_⟩) nofun (fun k hk => ?_) fun k hk => ?_
  · rw [ha] at hb
    obtain rfl := Option.some.inj hb
    exact hcall
  · obtain rfl := Option.some.inj hk
    exact ⟨i, a, ha, hcall, rfl, hitems⟩
  · rw [hprogress]
    exact h.shownProgress k hk

theorem Sound.showsProgress (h : sys.Sound userId token) (ha : sys.answers i = some a)
    (hcall : a.call ≠ .fetchLessons) (hc : Settles sys.client c' i)
    (hprogress : a.response.body = .progress c'.state.lessons.progress)
    (hitems : c'.state.lessons.items = sys.client.state.lessons.items) :
    Sound { sys with client := c', shownProgress := some a.number } userId token := by
  refine h.settles hc nofun (fun hnone => hitems.trans (h.noItems hnone)) (fun k hk => ?_)
    fun k hk => ?_
  · rw [hitems]
    exact h.shownItems k hk
  · obtain rfl := Option.some.inj hk
    exact ⟨i, a, ha, hcall, rfl, hprogress⟩

/-- The response to a request that reads is no write. -/
theorem Refetched.settles (h : sys.Refetched) (ha : sys.answers i = some a)
    (hread : a.call.isWrite = false) (hc : Settles sys.client c' i)
    (shownItems shownProgress : Option ℕ) :
    Refetched { sys with client := c', shownItems, shownProgress } := by
  intro j b hb hw
  rcases h j b hb hw with ⟨tk, hj⟩ | ⟨l, ⟨tk, hl, hnone⟩ | hl⟩
  · -- the thunk of a write is not the one that is settled
    refine .inl ⟨tk, hc.awaiting.mpr ⟨?_, hj⟩⟩
    rintro rfl
    rw [ha] at hb
    obtain rfl := Option.some.inj hb
    simp [hread] at hw
  · -- nor is the one of a fetch that has no answer yet
    refine .inr ⟨l, .inl ⟨tk, hc.awaiting.mpr ⟨?_, hl⟩, hnone⟩⟩
    rintro rfl
    simp [ha] at hnone
  · exact .inr ⟨l, .inr hl⟩

/-- A client that fetches the lessons fetches them after every write. -/
theorem refetched_fetchLessons (h : sys.Sound userId token) :
    Refetched { sys with client := sys.client.fetchLessons } := by
  intro j b _ _
  refine .inr ⟨sys.client.thunks.length, .inl ⟨sys.client.state.auth.token, ?_, h.fresh _ le_rfl⟩⟩
  simp [Client.Awaits, Client.fetchLessons, Client.spawn, Client.dispatch, rootReducer,
    authReducer]

theorem sends_fetchLessons (c : Client) : Sends c c.fetchLessons .fetchLessons :=
  ⟨rfl, rfl, rfl, rfl⟩

theorem decode_lessons {r : Response} {ls : List LessonResponse} (hok : r.ok = true)
    (hbody : r.body = .lessons ls) (failure : String) :
    r.decode failure = .ok ⟨some ls, none⟩ := by
  simp [Response.decode, hok, hbody]

theorem decode_progress {r : Response} {ps : List ProgressResponse} (hok : r.ok = true)
    (hbody : r.body = .progress ps) (failure : String) :
    r.decode failure = .ok ⟨none, some ps⟩ := by
  simp [Response.decode, hok, hbody]

theorem deliver_inv (h : sys.Sound userId token) (hr : sys.Refetched) (i : ℕ) :
    (sys.deliver i).Sound userId token ∧ (sys.deliver i).Refetched := by
  rcases deliver_cases sys i with he | ⟨call, tk, a, hawaits, ha, he⟩
  · rw [he]
    exact ⟨h, hr⟩
  obtain hcall : a.call = call := h.calls i call tk a hawaits ha
  have hok := h.ok i a ha
  rw [he]
  cases call with
  | fetchLessons =>
    obtain ⟨ls, hbody, -⟩ := h.lessons i a ha hcall
    rw [decode_lessons hok hbody, if_pos rfl, if_pos rfl]
    have hc : Settles sys.client ((sys.client.wait i .settled).showLessons tk ⟨some ls, none⟩) i :=
      ⟨rfl, rfl⟩
    exact ⟨h.showsLessons ha hcall hc hbody rfl,
      hr.settles ha (by simp [hcall, ApiCall.isWrite]) hc _ _⟩
  | fetchProgress =>
    have hne : a.call ≠ .fetchLessons := by simp [hcall]
    obtain ⟨ps, hbody, -⟩ := h.progress i a ha hne
    rw [decode_progress hok hbody, if_neg (by simp), if_neg (by simp)]
    have hc : Settles sys.client ((sys.client.wait i .settled).showProgress tk ⟨none, some ps⟩) i :=
      ⟨rfl, rfl⟩
    exact ⟨h.showsProgress ha hne hc hbody rfl,
      hr.settles ha (by simp [hcall, ApiCall.isWrite]) hc _ _⟩
  | submitProgress lessonId score =>
    have hne : a.call ≠ .fetchLessons := by simp [hcall]
    obtain ⟨ps, hbody, -⟩ := h.progress i a ha hne
    rw [decode_progress hok hbody, if_neg (by simp), if_neg (by simp)]
    have hc : Settles sys.client ((sys.client.wait i .settled).showProgress tk ⟨none, some ps⟩) i :=
      ⟨rfl, rfl⟩
    -- the response of a write is shown, and the lessons are fetched again
    have hshown := h.showsProgress ha hne hc hbody rfl
    exact ⟨hshown.sends (sends_fetchLessons _), refetched_fetchLessons hshown⟩

end Deliver

/-! ## Runs -/

/-- The invariant of a session, for the user with the id `userId`. -/
structure Inv (sys : ClientServer) (userId token : String) : Prop where
  sound : sys.Sound userId token
  refetched : sys.Refetched
  server : ProgressInv sys.server

theorem inv_beginSession {auth : AuthState} (hauth : auth.token = some token)
    (storage : SessionStorage) {server : MemoryState} (hserver : ProgressInv server) :
    (beginSession auth storage server).Inv userId token := by
  have hnone : ∀ i call tk, ¬ (beginSession auth storage server).client.Awaits i call tk :=
    fun i call tk h => by simp [Client.Awaits, beginSession, initialClient] at h
  have hanswers : ∀ i a, (beginSession auth storage server).answers i ≠ some a := fun _ a =>
    (Option.some_ne_none a).symm
  have hshown : ∀ k : ℕ, (none : Option ℕ) ≠ some k := fun k => (Option.some_ne_none k).symm
  refine ⟨?_, fun i a ha => absurd ha (hanswers i a), hserver⟩
  exact
    { token_eq := hauth
      sent := fun i call tk hi => absurd hi (hnone i call tk)
      fresh := fun _ _ => rfl
      calls := fun i call tk _ hi => absurd hi (hnone i call tk)
      numbers := fun i a ha => absurd ha (hanswers i a)
      ok := fun i a ha => absurd ha (hanswers i a)
      lessons := fun i a ha => absurd ha (hanswers i a)
      progress := fun i a ha => absurd ha (hanswers i a)
      noItems := fun _ => rfl
      shownItems := fun k hk => absurd hk (hshown k)
      delivered := fun _ i a ha => absurd ha (hanswers i a)
      shownProgress := fun k hk => absurd hk (hshown k) }

theorem Inv.sends (h : sys.Inv userId token) {c' : Client} {call : ApiCall}
    (hc : Sends sys.client c' call) : Inv { sys with client := c' } userId token :=
  ⟨h.sound.sends hc, h.refetched.sends hc, h.server⟩

theorem Inv.step {P : Platform} {cfg : Config}
    (htoken : ∀ now payload, P.jwtVerify token cfg.jwtSecret now = some payload →
      payload.sub = userId)
    (h : sys.Inv userId token) {e : SessionEvent} (hs : sys.succeeds P cfg e = true) :
    (sys.step P cfg e).Inv userId token := by
  cases e with
  | fetchLessons => exact h.sends (sends_fetchLessons _)
  | fetchProgress => exact h.sends ⟨rfl, rfl, rfl, rfl⟩
  | submitProgress lessonId score => exact h.sends ⟨rfl, rfl, rfl, rfl⟩
  | deliver i =>
    have hserver : (sys.deliver i).server = sys.server := by
      rcases deliver_cases sys i with he | ⟨call, tk, a, -, -, he⟩ <;> rw [he]
    obtain ⟨hsound, hrefetched⟩ := deliver_inv h.sound h.refetched i
    exact ⟨hsound, hrefetched, hserver ▸ h.server⟩
  | handle i ip seeds =>
    rcases handle_cases P cfg sys i ip seeds with he | ⟨call, tk, response, hawaits, hnone, hr, he⟩
    · rw [ClientServer.step, he]
      exact h
    · -- the request carries the token of the session, and is answered with success
      obtain rfl := h.sound.sent i call tk hawaits
      have hok := ok_of_succeeds hs hawaits hr
      have hcases := handled_cases htoken hr hok
      have hnext := progressInv_next P cfg h.server (call.request (some token) ip seeds)
      rw [ClientServer.step, he]
      exact ⟨h.sound.answered hawaits hnone hok hcases,
        h.refetched.answered h.sound hawaits hnone, hnext⟩

/-- A client that shows the lists handled last is up to date: a submission that was answered carries
the progress list, and fetches the lessons again. -/
theorem Inv.upToDate (h : sys.Inv userId token) (hquiet : sys.Quiet)
    (hlatest : sys.ShowsLatest) : sys.UpToDate := by
  constructor
  · intro k hk i _ w hw hwrite
    rcases h.refetched i w hw hwrite with ⟨tk, hi⟩ | ⟨n, ⟨tk, hn, -⟩ | ⟨a, ha, hcall, hlt⟩⟩
    · exact absurd hi hquiet.not_awaits
    · exact absurd hn hquiet.not_awaits
    · obtain ⟨k', hk', hle⟩ := hlatest.items n (h.sound.lt_of_answered ha) a ha hcall
      obtain rfl := Option.mem_unique hk hk'
      omega
  · intro k hk i hi w hw hwrite
    have hcall : w.call ≠ .fetchLessons := by
      intro heq
      simp [heq, ApiCall.isWrite] at hwrite
    obtain ⟨k', hk', hle⟩ := hlatest.progress i hi w hw hcall
    obtain rfl := Option.mem_unique hk hk'
    exact hle

/-- **In a quiet state that is up to date, the client agrees with the server.** -/
theorem Inv.agreesOn (h : sys.Inv userId token) (hquiet : sys.Quiet) (hlists : sys.UpToDate)
    (hprogress : sys.ProgressAnswered) : sys.AgreesOn userId := by
  constructor
  · -- some response with the progress list was delivered, since nothing is in flight
    obtain ⟨i, -, a, ha, hcall⟩ := hprogress
    obtain ⟨k, hk⟩ : ∃ k, sys.shownProgress = some k := by
      rw [← Option.ne_none_iff_exists']
      intro hnone
      obtain ⟨tk, hi⟩ := h.sound.delivered hnone i a ha hcall
      exact hquiet.not_awaits hi
    obtain ⟨j, b, hb, hbcall, rfl, hbody⟩ := h.sound.shownProgress k hk
    obtain ⟨ps, hps, hcurrent⟩ := h.sound.progress j b hb hbcall
    obtain rfl : _ = ps := Body.progress.inj (hbody.symm.trans hps)
    refine hcurrent fun l w hw hwrite => Nat.lt_succ_of_le ?_
    exact hlists.progress _ hk l (h.sound.lt_of_answered hw) w hw hwrite
  · intro l hl
    cases hk : sys.shownItems with
    | none =>
      -- no lessons are shown
      rw [h.sound.noItems hk] at hl
      cases hl
    | some k =>
      obtain ⟨j, b, hb, hbcall, rfl, hbody⟩ := h.sound.shownItems k hk
      obtain ⟨ls, hls, hcurrent⟩ := h.sound.lessons j b hb hbcall
      obtain rfl : _ = ls := Body.lessons.inj (hbody.symm.trans hls)
      have hlist : sys.client.state.lessons.items = sys.server.lessonList userId :=
        hcurrent fun m w hw hwrite =>
          hlists.items _ hk m (h.sound.lt_of_answered hw) w hw hwrite
      rw [hlist] at hl
      obtain ⟨x, -, rfl⟩ := List.mem_map.mp hl
      simp only [toLessonResponse, get_progressMap_progressOf h.server, reportOf]

end ClientServer

/-- **The client converges to the server.** In a session in which every request succeeds, once
nothing is in flight the client shows the progress list of the server, and every lesson with the
completion and the score that the server holds for it, if some response carried the progress list
and no submission was handled after the responses that were delivered last. This is so when, for
each of the two lists, the response delivered last is the one handled last among those that carry
it. -/
theorem client_converges {P : Platform} {cfg : Config} {userId token : String}
    (htoken : ∀ now payload, P.jwtVerify token cfg.jwtSecret now = some payload →
      payload.sub = userId)
    (catalogue : List CoreLesson) (salt : String) (now : Time) (reqs : List Request)
    {auth : AuthState} (hauth : auth.token = some token) (storage : SessionStorage)
    {events : List SessionEvent} :
    let sys₀ := ClientServer.beginSession auth storage
      ((createMemoryStore P catalogue salt now).after P cfg reqs)
    let sys := run (ClientServer.step P cfg) sys₀ events
    StepsMeet (ClientServer.step P cfg) (fun sys e => sys.succeeds P cfg e = true) sys₀ events →
      sys.Quiet →
        (sys.ProgressAnswered → sys.UpToDate → sys.AgreesOn userId) ∧
          (sys.ShowsLatest → sys.UpToDate) := by
  intro sys₀ sys hsucceed hquiet
  have hserver : ProgressInv ((createMemoryStore P catalogue salt now).after P cfg reqs) :=
    progressInv_after P cfg progressInv_createMemoryStore reqs
  have hstart : sys₀.Inv userId token := ClientServer.inv_beginSession hauth storage hserver
  have hinv : sys.Inv userId token :=
    run_invariant_of_stepsMeet (I := fun sys => sys.Inv userId token)
      (fun _ _ h hs => h.step htoken hs) hstart hsucceed
  exact ⟨fun hprogress hlists => hinv.agreesOn hquiet hlists hprogress, hinv.upToDate hquiet⟩

/-! ## A session -/

/-- The token of an account with the id `u_1`. -/
def adaToken : String :=
  plainPlatform.jwtSign ⟨"u_1", "ada@example.com"⟩ plainConfig.jwtSecret plainConfig.jwtExpiresIn 0

/-- The registration of the account. -/
def adaRegisters : Request := plainRegistration "ada" "ada@example.com" "secret1" "u_1"

/-- The session that begins with the registration. -/
def adaAuth : AuthState :=
  { initialAuthState with
    user := some ⟨"u_1", "ada", "ada", "ada@example.com", "Engineer", "Engineer", 0⟩
    token := some adaToken
    isBootstrapping := false }

/-- The server after the registration. -/
def adaServer : MemoryState :=
  (createMemoryStore plainPlatform coreLessons "salt" 0).after plainPlatform plainConfig
    [adaRegisters]

/-- The client and the server when the session begins. -/
def adaBegins : ClientServer := ClientServer.beginSession adaAuth ⟨none, none⟩ adaServer

/-- The session after some events. -/
def adaSession (events : List SessionEvent) : ClientServer :=
  run (ClientServer.step plainPlatform plainConfig) adaBegins events

theorem sub_of_adaToken (now : Time) (payload : TokenPayload)
    (h : plainPlatform.jwtVerify adaToken plainConfig.jwtSecret now = some payload) :
    payload.sub = "u_1" := by
  rw [adaToken, plain_jwtVerify_jwtSign] at h
  split_ifs at h
  rw [← Option.some.inj h]

/-- Two fetches of the progress that overtake each other, after a submission and its second fetch of
the lessons. -/
theorem ada_agrees :
    let seeds : Seeds := ⟨0, 0, 0, 0, "", "", 0⟩
    let session := adaSession [.submitProgress "l_conf_1" 80, .handle 0 "" seeds, .deliver 0,
      .handle 1 "" seeds, .deliver 1, .fetchProgress, .fetchProgress, .handle 2 "" seeds,
      .handle 3 "" seeds, .deliver 3, .deliver 2]
    session.AgreesOn "u_1" ∧ ¬ session.ShowsLatest := by
  intro seeds
  generalize hevents : ([.submitProgress "l_conf_1" 80, .handle 0 "" seeds, .deliver 0,
      .handle 1 "" seeds, .deliver 1, .fetchProgress, .fetchProgress, .handle 2 "" seeds,
      .handle 3 "" seeds, .deliver 3, .deliver 2] : List SessionEvent) = events
  obtain ⟨hsucceed, hquiet, hitems, hprogress, hanswered, hovertaken⟩ :
      StepsMeet (ClientServer.step plainPlatform plainConfig)
        (fun sys e => sys.succeeds plainPlatform plainConfig e = true) adaBegins events ∧
      (adaSession events).Quiet ∧
      (∀ k ∈ (adaSession events).shownItems, ∀ i < (adaSession events).client.thunks.length,
        ∀ a ∈ (adaSession events).answers i, a.call.isWrite = true → a.number < k) ∧
      (∀ k ∈ (adaSession events).shownProgress, ∀ i < (adaSession events).client.thunks.length,
        ∀ a ∈ (adaSession events).answers i, a.call.isWrite = true → a.number ≤ k) ∧
      (adaSession events).ProgressAnswered ∧
      ¬ ∀ i < (adaSession events).client.thunks.length, ∀ a ∈ (adaSession events).answers i,
        a.call ≠ .fetchLessons → ∃ k ∈ (adaSession events).shownProgress, a.number ≤ k := by
    rw [← hevents]
    decide +kernel
  have hconverges := client_converges sub_of_adaToken coreLessons "salt" 0 [adaRegisters] rfl
    ⟨none, none⟩ hsucceed hquiet
  exact ⟨hconverges.1 hanswered ⟨hitems, hprogress⟩, fun h => hovertaken h.progress⟩

/-- The progress was fetched before a submission and is shown after it. -/
theorem overtaken_response_shown :
    let seeds : Seeds := ⟨0, 0, 0, 0, "", "", 0⟩
    let events : List SessionEvent :=
      [.fetchProgress, .handle 0 "" seeds, .submitProgress "l_conf_1" 80, .handle 1 "" seeds,
        .deliver 1, .deliver 0, .handle 2 "" seeds, .deliver 2]
    StepsMeet (ClientServer.step plainPlatform plainConfig)
        (fun sys e => sys.succeeds plainPlatform plainConfig e = true) adaBegins events ∧
      (adaSession events).Quiet ∧ ¬ (adaSession events).AgreesOn "u_1" := by
  intro seeds events
  obtain ⟨hsucceed, hquiet, hold⟩ :
      StepsMeet (ClientServer.step plainPlatform plainConfig)
        (fun sys e => sys.succeeds plainPlatform plainConfig e = true) adaBegins events ∧
      (adaSession events).Quiet ∧ (adaSession events).client.state.lessons.progress ≠
        (adaSession events).server.progressList "u_1" := by
    decide +kernel
  exact ⟨hsucceed, hquiet, fun h => hold h.progress⟩

end LanguageGuru
