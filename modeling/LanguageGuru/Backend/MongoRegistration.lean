import LanguageGuru.Backend.MongoInterleavings

/-!
# Concurrent registrations on the MongoDB store

The unique index decides between registrations of one email, in whatever way their handlers are
interleaved. A free email goes to exactly one of them, and every other one is answered 409 or,
when it lost the email between its lookup and its creation, not at all. The memory store, which has
no such index, may give one email to several.

## Main definitions

* `RegisteredAt P e pool i`: the request at index `i` registers the email `e` and is answered 201

## Main results

* `exists_registration_of_mem`: an email that was not there at the start was registered
* `mongo_registers_once`: exactly one registration of a free email is answered 201
-/

namespace LanguageGuru

open Process

variable {P : Platform} {M : Mongoose} {cfg : Config} {s₀ : MongoState}
  {order past : List (ℕ × Request)} {pool : MongoPool P M} {e : String}

/-- The request at index `i` registers the email `e` in some letter case, and is answered 201. -/
def RegisteredAt (P : Platform) {M : Mongoose} (e : String) (pool : MongoPool P M) (i : ℕ) : Prop :=
  ∃ t, pool.tasks[i]? = some t ∧ t.request.registers P e = true ∧
    ∃ r ∈ t.outputs, r.status = 201

/-- Responses that agree have one status. -/
theorem Response.Agrees.status {r r' : Response} (h : r.Agrees r') : r.status = r'.status := by
  rcases h with rfl | ⟨h, h', -⟩
  · rfl
  · rw [h, h']

/-! ## Emails of sequential runs -/

/-- The emails after requests that run alone. -/
abbrev emailsAfter (P : Platform) (M : Mongoose) (cfg : Config) (s₀ : MongoState)
    (order : List (ℕ × Request)) : List String :=
  (Pool.sequential (mongoMeaning P M cfg) s₀ order).emails

theorem emailsAfter_snoc (i : ℕ) (r : Request) :
    emailsAfter P M cfg s₀ (order ++ [(i, r)]) =
      ((serveMongo P cfg r).exec (mongoStore P M)
        (Pool.sequential (mongoMeaning P M cfg) s₀ order)).state.emails := by
  rw [emailsAfter, Pool.sequential_snoc]
  rfl

/-- Emails that are there stay there. -/
theorem emailsAfter_mono (h : past <+: order) :
    emailsAfter P M cfg s₀ past <+: emailsAfter P M cfg s₀ order := (grows_sequential h).emails

/-- A registration leaves its email among the emails. -/
theorem mem_emails_registration (hP : PlatformLaws P) {i : ℕ} {r : Request}
    (hr : r.registers P e = true) : e ∈ emailsAfter P M cfg s₀ (order ++ [(i, r)]) := by
  obtain ⟨value, hv, rfl⟩ := registers_eq_true.mp hr
  rw [emailsAfter_snoc, MongoState.exec_registration hP cfg hv]
  split_ifs with htaken
  · exact htaken
  · show _ ∈ (List.map User.email (_ ++ [_]))
    rw [List.map_append]
    exact List.mem_append_right _ (List.mem_singleton.mpr (hP.toLowerCase_idem value.email).symm)

/-- A request adds an email by registering it. -/
theorem registers_of_new (hP : PlatformLaws P) {i : ℕ} {r : Request}
    (hold : e ∉ emailsAfter P M cfg s₀ order)
    (hnew : e ∈ emailsAfter P M cfg s₀ (order ++ [(i, r)])) : r.registers P e = true := by
  rw [emailsAfter_snoc] at hnew
  cases hv : r.registration P with
  | none =>
    have hsame : ∀ s : MongoState, ((serveMongo P cfg r).exec (mongoStore P M) s).state.emails =
        s.emails := by
      intro s
      have haccounts := congrArg (List.map Account.email)
        (MongoState.account_exec_other (M := M) cfg hv s)
      rw [List.map_map, List.map_map] at haccounts
      exact haccounts
    rw [hsame] at hnew
    exact absurd hnew hold
  | some value =>
    rw [registers_of_registration hv, decide_eq_true_eq]
    rw [MongoState.exec_registration hP cfg hv] at hnew
    split_ifs at hnew
    · exact absurd hnew hold
    · -- the email that is new is the one of the user that was created
      change e ∈ List.map User.email (_ ++ [_]) at hnew
      rw [List.map_append] at hnew
      rcases List.mem_append.mp hnew with hnew | hnew
      · exact absurd hnew hold
      · rw [List.mem_singleton.mp hnew]
        exact (hP.toLowerCase_idem value.email).symm

/-- An email that was not there at the start was registered. -/
theorem exists_registration_of_mem (hP : PlatformLaws P) (hstart : e ∉ s₀.emails)
    (hend : e ∈ emailsAfter P M cfg s₀ order) :
    ∃ past i r, past ++ [(i, r)] <+: order ∧ e ∉ emailsAfter P M cfg s₀ past ∧
      r.registers P e = true := by
  induction order using List.reverseRecOn with
  | nil => exact absurd hend hstart
  | append_singleton order x ih =>
    obtain ⟨i, r⟩ := x
    by_cases hmem : e ∈ emailsAfter P M cfg s₀ order
    · obtain ⟨past, j, r', hpast, hrest⟩ := ih hmem
      exact ⟨past, j, r', hpast.trans (List.prefix_append _ _), hrest⟩
    · exact ⟨order, i, r, List.prefix_rfl, hmem, registers_of_new hP hmem hend⟩

/-! ## Answers -/

/-- A registration is answered 201 when its email was free at the moment it took effect, and 409
otherwise. -/
theorem status_of_answered (hP : PlatformLaws P) {r : Request} (hr : r.registers P e = true)
    {o : Response}
    (ho : (mongoMeaning P M cfg r).answers (Pool.sequential (mongoMeaning P M cfg) s₀ past) o) :
    o.status = if e ∈ emailsAfter P M cfg s₀ past then 409 else 201 := by
  obtain ⟨value, hv, rfl⟩ := registers_eq_true.mp hr
  obtain ⟨o', hsent, hagrees⟩ := ho
  rw [MongoState.exec_registration hP cfg hv] at hsent
  rw [hagrees.status]
  split_ifs at hsent ⊢ <;> rw [← List.singleton_inj.mp hsent]

section Linearized

variable (hP : PlatformLaws P) (h : Pool.Linearization (mongoMeaning P M cfg) s₀ order pool)
include hP h

/-- A registration that is answered 201 took effect while its email was free. -/
theorem past_of_registeredAt {i : ℕ} (hi : RegisteredAt P e pool i) :
    ∃ past r, past ++ [(i, r)] <+: order ∧ r.registers P e = true ∧
      e ∉ emailsAfter P M cfg s₀ past := by
  obtain ⟨t, ht, hr, o, ho, hstatus⟩ := hi
  rcases h.answered i t ht with hnone | ⟨o', past, hsome, hpast, hanswers⟩
  · rw [hnone] at ho
    cases ho
  · rw [hsome, List.mem_singleton] at ho
    subst ho
    refine ⟨past, t.request, hpast, hr, fun hmem => ?_⟩
    rw [status_of_answered hP hr hanswers, if_pos hmem] at hstatus
    cases hstatus

/-- A registration that took effect while its email was free is answered 201 when it has ended. -/
theorem registeredAt_of_past {i : ℕ} {r : Request} (hpast : past ++ [(i, r)] <+: order)
    (hr : r.registers P e = true) (hfree : e ∉ emailsAfter P M cfg s₀ past)
    (hended : ∀ t ∈ pool.tasks, t.request.registers P e = true →
      t.thread.hasEnded = true) : RegisteredAt P e pool i := by
  have hmem : (i, r) ∈ order := hpast.subset (by simp)
  obtain ⟨t, ht, hreq⟩ := h.arrived _ hmem
  change t.request = r at hreq
  subst hreq
  refine ⟨t, ht, hr, ?_⟩
  rcases h.answered i t ht with hnone | ⟨o, past', hsome, hpast', hanswers⟩
  · -- a task that ended without an answer has not taken effect
    obtain ⟨hnot, -⟩ := h.silent i t ht (hended t (List.mem_of_getElem? ht) hr) hnone
    exact absurd (List.mem_map.mpr ⟨_, hmem, rfl⟩) hnot
  · obtain rfl := h.past_unique hpast hpast'
    refine ⟨o, by rw [hsome]; exact List.mem_singleton.mpr rfl, ?_⟩
    rw [status_of_answered hP hr hanswers, if_neg hfree]

/-- No two registrations of one email are answered 201. -/
theorem registeredAt_unique {i j : ℕ} (hi : RegisteredAt P e pool i)
    (hj : RegisteredAt P e pool j) : i = j := by
  obtain ⟨past, r, hpast, hr, hfree⟩ := past_of_registeredAt hP h hi
  obtain ⟨past', r', hpast', hr', hfree'⟩ := past_of_registeredAt hP h hj
  -- of two that took effect, the later one found the email taken
  have hlater : ∀ {p p' : List (ℕ × Request)} {x x' : ℕ × Request},
      x.2.registers P e = true → e ∉ emailsAfter P M cfg s₀ p' → p ++ [x] <+: p' ++ [x'] →
        p ++ [x] = p' ++ [x'] := by
    intro p p' x x' hx hp' hle
    rcases List.prefix_concat_iff.mp hle with heq | hle
    · exact heq
    · exact absurd ((emailsAfter_mono hle).subset (mem_emails_registration hP hx)) hp'
  have heq : past ++ [(i, r)] = past' ++ [(j, r')] := by
    rcases List.prefix_or_prefix_of_prefix hpast hpast' with hle | hle
    · exact hlater hr hfree' hle
    · exact (hlater hr' hfree hle).symm
  exact congrArg Prod.fst (List.append_inj_right' heq rfl |> List.singleton_inj.mp)

/-- A registration that has ended leaves its email among the emails. -/
theorem mem_emails_of_ended {i : ℕ} {t : Task Request (mongoStore P M) Response Unit}
    (ht : pool.tasks[i]? = some t) (hr : t.request.registers P e = true)
    (hended : t.thread.hasEnded = true) : e ∈ emailsAfter P M cfg s₀ order := by
  rcases h.answered i t ht with hnone | ⟨o, past, -, hpast, -⟩
  · have hsilent := (h.silent i t ht hended hnone).2 e hr
    rw [h.state] at hsilent
    exact hsilent
  · exact (emailsAfter_mono hpast).subset (mem_emails_registration hP hr)

end Linearized

/-- **Exactly one registration of a free email is answered 201.** However the handlers of the
requests on the MongoDB store are interleaved, no two registrations of an email are answered 201,
and none is when the email was taken at the start. When the email was free, some request registers
it, and all that do have ended, then one of them is answered 201. The others are answered 409 or not
at all. -/
theorem mongo_registers_once (hP : PlatformLaws P) (M : Mongoose) (cfg : Config) (s₀ : MongoState)
    (as : List (Action Request))
    (hfresh : (s₀.ids ++ (as.filterMap Pool.arrival).map fun r => r.seeds.newId).Nodup)
    (e : String) :
    let pool := runMongo P M cfg s₀ as
    (∀ i j, RegisteredAt P e pool i → RegisteredAt P e pool j → i = j) ∧
    (e ∈ s₀.emails → ∀ i, ¬ RegisteredAt P e pool i) ∧
    (e ∉ s₀.emails → (∃ t ∈ pool.tasks, t.request.registers P e = true) →
      (∀ t ∈ pool.tasks, t.request.registers P e = true → t.thread.hasEnded = true) →
      ∃ i, RegisteredAt P e pool i) ∧
    ∀ t ∈ pool.tasks, t.request.registers P e = true →
      t.outputs = [] ∨ ∃ r, t.outputs = [r] ∧ (r.status = 201 ∨ r.status = 409) := by
  intro pool
  obtain ⟨order, h, -⟩ := linearization_runMongo hP M cfg s₀ as hfresh
  refine ⟨fun i j => registeredAt_unique hP h, fun htaken i hi => ?_,
    fun hfree ⟨t, ht, hr⟩ hended => ?_, fun t ht hr => ?_⟩
  · obtain ⟨past, r, -, -, hnot⟩ := past_of_registeredAt hP h hi
    exact hnot ((emailsAfter_mono List.nil_prefix).subset htaken)
  · obtain ⟨i, hi⟩ := List.mem_iff_getElem?.mp ht
    have hmem := mem_emails_of_ended hP h hi hr (hended t ht hr)
    -- the request that brought the email is the one that is answered 201
    obtain ⟨past, j, r, hpast, hnot, hreg⟩ := exists_registration_of_mem hP hfree hmem
    exact ⟨j, registeredAt_of_past hP h hpast hreg hnot hended⟩
  · obtain ⟨i, hi⟩ := List.mem_iff_getElem?.mp ht
    rcases h.answered i t hi with hnone | ⟨o, past, hsome, -, hanswers⟩
    · exact .inl hnone
    · refine .inr ⟨o, hsome, ?_⟩
      rw [status_of_answered hP hr hanswers]
      split_ifs
      · exact .inr rfl
      · exact .inl rfl

/-- Two overlapping registrations of one email, of which the second loses the email. -/
theorem ada_registered_once :
    let pool := runMongo plainPlatform plainMongoose plainConfig ⟨true, [], [], []⟩
      (adaSchedule [0, 1, 0, 1, 0, 1])
    ∃ i, RegisteredAt plainPlatform "ada@example.com" pool i := by
  intro pool
  refine (mongo_registers_once plain_platformLaws plainMongoose plainConfig ⟨true, [], [], []⟩
    (adaSchedule [0, 1, 0, 1, 0, 1]) (by decide) "ada@example.com").2.2.1 ?_ ?_ ?_
  · exact List.not_mem_nil
  · decide +kernel
  · decide +kernel

end LanguageGuru
