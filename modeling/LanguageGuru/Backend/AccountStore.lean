import LanguageGuru.Backend.Registration
import LanguageGuru.Backend.StoreEquivalence

/-!
# Stores with accounts

What a registration needs of a store: the lookup by email finds nobody exactly when no account has
the email in any case of its letters, a registration that found nobody creates an account with its
email, and an email stays free as long as nobody registers it. Both stores are of this kind. A
registration that runs while others use such a store, and do not register its email, is answered
201 and creates the account if the email is free, and is answered 409 if it is not.

## Main definitions

* `AccountStore P S`: a store with the emails of its accounts
* `memoryAccounts`, `mongoAccounts`: the two stores

## Main results

* `AccountStore.mem_emails_replay`: the emails after the calls of others
* `AccountStore.among_register_taken`, `AccountStore.among_register_free`: a registration while
  others use the store
-/

namespace LanguageGuru

open Process

/-- The call registers the email `e`. -/
def StoreCall.registersEmail (P : Platform) (e : String) : StoreCall → Bool
  | .createUser payload _ _ => P.toLowerCase payload.email = e
  | _ => false

/-- A store with the lower-cased emails of its accounts. What a call has found or created is seen
after any calls of others. -/
structure AccountStore (P : Platform) (S : Type) where
  store : Store S
  mode : String
  emails : S → List String
  lookup_state : ∀ email s, (store.perform (.findUserByEmail email) s).2 = s
  lookup : ∀ email s cs, ∃ found,
    store.view (.findUserByEmail email) (store.perform (.findUserByEmail email) s).1
      (store.replay s cs) = .ok found ∧ (found = none ↔ P.toLowerCase email ∉ emails s)
  create : ∀ {body : Json} {value : RegisterValue}, registerSchema P body = .ok value →
    ∀ salt newId now s, P.toLowerCase value.email ∉ emails s →
      let c := StoreCall.createUser (newUser P value salt) newId now
      P.toLowerCase value.email ∈ emails (store.perform c s).2 ∧ ∀ cs, ∃ u,
        store.view c (store.perform c s).1 (store.replay (store.perform c s).2 cs) = .ok u
  others : ∀ {c : StoreCall} {e : String}, c.registersEmail P e = false →
    ∀ s, e ∈ emails (store.perform c s).2 ↔ e ∈ emails s

section Stores

variable {P : Platform}

theorem mem_append_of_ne {e x : String} {xs : List String} (hne : x ≠ e) :
    e ∈ xs ++ [x] ↔ e ∈ xs := by
  rw [List.mem_append, List.mem_singleton]
  exact or_iff_left (Ne.symm hne)

/-- The memory store. -/
def memoryAccounts (P : Platform)
    (hlower : ∀ e, P.toLowerCase (P.toLowerCase e) = P.toLowerCase e) :
    AccountStore P MemoryState where
  store := memoryStore P
  mode := "memory"
  emails := MemoryState.emails P
  lookup_state _ _ := rfl
  lookup email s cs := by
    -- the record that was found is still at its position
    rcases (grows_replay P cs s).findIdx? fun u =>
        P.toLowerCase u.email = P.toLowerCase email with ⟨hi, hview⟩ | ⟨u, u', hu, hview, -⟩
    · exact ⟨none, congrArg Except.ok hview,
        iff_of_true rfl ((findIdx?_eq_none_iff_emails s).mp hi)⟩
    · refine ⟨some u', congrArg Except.ok hview, iff_of_false (Option.some_ne_none u') ?_⟩
      intro hfree
      rw [(findIdx?_eq_none_iff_emails s).mpr hfree] at hview
      cases hview
  create := by
    intro body value hv salt newId now s _ c
    constructor
    · show _ ∈ (s.addUser _).emails P
      rw [emails_addUser]
      exact List.mem_append_right _ (List.mem_singleton.mpr (hlower value.email).symm)
    · intro cs
      have hnew : (s.users ++ [(newUser P value salt).record newId now])[s.users.length]? =
          some ((newUser P value salt).record newId now) := List.getElem?_concat_length
      obtain ⟨u, hu, -⟩ :=
        (grows_replay P cs ((memoryStore P).perform c s).2).getElem? hnew
      refine ⟨u, ?_⟩
      show deref _ s.users.length = _
      rw [deref, hu]
  others := by
    intro c e hc s
    cases c with
    | createUser payload newId now =>
      show e ∈ (s.addUser _).emails P ↔ _
      rw [emails_addUser]
      exact mem_append_of_ne (of_decide_eq_false hc)
    | _ => rw [emails_perform_other rfl]

/-- The MongoDB store. -/
def mongoAccounts (P : Platform) (hP : PlatformLaws P) (M : Mongoose) :
    AccountStore P MongoState where
  store := mongoStore P M
  mode := "mongo"
  emails s := s.users.map User.email
  lookup_state _ _ := rfl
  lookup email s cs := by
    refine ⟨s.userByEmail P email, rfl, ?_⟩
    simp [MongoState.userByEmail]
  create := by
    intro body value hv salt newId now s hfree c
    have hemail : P.toLowerCase (newUser P value salt).email = P.toLowerCase value.email :=
      hP.toLowerCase_idem value.email
    have hvalid : ¬ ((newUser P value salt).username = "" ∨
        P.toLowerCase (newUser P value salt).email = "" ∨
          (newUser P value salt).passwordHash = "") := by
      rintro (hname | hempty | hhash)
      · exact username_ne_empty hv salt hname
      · rw [hemail] at hempty
        exact hP.toLowerCase_ne_empty _ (email_ne_empty hv) hempty
      · exact hP.hashSync_ne_empty _ _ hhash
    have hunique : (s.users.any fun u => u.email = P.toLowerCase (newUser P value salt).email) =
        false := by
      rw [hemail]
      simpa using hfree
    have hperform : (mongoStore P M).perform c s =
        (.ok (MongoState.document P (newUser P value salt) newId now),
          s.addUser (MongoState.document P (newUser P value salt) newId now)) := by
      simp only [c, mongoStore, MongoState.perform, NewUser.record, if_neg hvalid, hunique,
        Bool.false_eq_true, if_false]
      rfl
    rw [hperform]
    constructor
    · show _ ∈ (s.users ++ [_]).map User.email
      rw [List.map_append]
      exact List.mem_append_right _ (List.mem_singleton.mpr hemail.symm)
    · intro cs
      exact ⟨_, rfl⟩
  others := by
    intro c e hc s
    cases c with
    | createUser payload newId now =>
      show e ∈ (MongoState.perform P M (.createUser payload newId now) s).2.users.map _ ↔ _
      rw [MongoState.perform]
      split_ifs
      · exact Iff.rfl
      · exact Iff.rfl
      · rw [List.map_append]
        exact mem_append_of_ne (of_decide_eq_false hc)
    | updateUserRole id role =>
      have hemails : (Keyed.update User.id id (fun u => { u with role }) s.users).map User.email =
          s.users.map User.email := by
        refine Keyed.map_update ?_ s.users
        exact fun _ _ => rfl
      show e ∈ (MongoState.perform P M (.updateUserRole id role) s).2.users.map _ ↔ _
      rw [MongoState.perform]
      split_ifs
      · rw [hemails]
      · exact Iff.rfl
    | findUserById id =>
      show e ∈ (MongoState.perform P M (.findUserById id) s).2.users.map _ ↔ _
      rw [MongoState.perform]
      split_ifs
      · exact Iff.rfl
      · exact Iff.rfl
    | getLessons filters =>
      show e ∈ (MongoState.perform P M (.getLessons filters) s).2.users.map _ ↔ _
      rw [MongoState.perform]
      split
      · exact Iff.rfl
      · exact Iff.rfl
    | _ => exact Iff.rfl

end Stores

namespace AccountStore

variable {P : Platform} {S : Type} (accounts : AccountStore P S) {cfg : Config} {req : Request}
  {value : RegisterValue} {s : S}

/-- Calls that do not register an email leave it as free as it was. -/
theorem mem_emails_replay {e : String} {cs : List StoreCall}
    (hcs : ∀ c ∈ cs, c.registersEmail P e = false) :
    e ∈ accounts.emails (accounts.store.replay s cs) ↔ e ∈ accounts.emails s := by
  induction cs using List.reverseRecOn with
  | nil => exact Iff.rfl
  | append_singleton cs c ih =>
    rw [Service.replay_snoc, accounts.others (hcs c (by simp))]
    exact ih fun c' hc' => hcs c' (by simp [hc'])

/-- A registration whose email is taken is refused, whatever the others do. -/
theorem among_register_taken {body : Json} (hv : registerSchema P body.orEmpty = .ok value)
    {others : ℕ → List StoreCall} (htaken : P.toLowerCase value.email ∈ accounts.emails s) :
    (register P cfg req body).among accounts.store others s =
      ([.called (lookupCall value), .sent ⟨409, .error "Email already registered"⟩],
        accounts.store.replay s (others 0)) := by
  obtain ⟨found, hview, hfound⟩ := accounts.lookup value.email s (others 0)
  cases found with
  | none => exact absurd htaken (hfound.mp rfl)
  | some u =>
    simp only [register_eq hv, Program.among, accounts.lookup_state, hview, Program.onAnswer_ok]
    rfl

/-- A registration whose email is free creates its user and is answered with a user. -/
theorem among_register_free (cfg : Config) (req : Request) {body : Json}
    (hv : registerSchema P body.orEmpty = .ok value) {others : ℕ → List StoreCall}
    (hothers : ∀ n, ∀ c ∈ others n, c.registersEmail P (P.toLowerCase value.email) = false)
    (hfree : P.toLowerCase value.email ∉ accounts.emails s) :
    ∃ u s', (register P cfg req body).among accounts.store others s =
      ([.called (lookupCall value), .called (createCall P req value),
        .sent ⟨201, .session (signToken P cfg u req.seeds.signedAt) (sanitizeUser u)⟩], s') ∧
      P.toLowerCase value.email ∈ accounts.emails s' := by
  obtain ⟨found, hview, hfound⟩ := accounts.lookup value.email s (others 0)
  cases found with
  | some u => exact absurd (hfound.mpr hfree) (Option.some_ne_none u)
  | none =>
    -- the email is still free when the user is created
    have hfree' : P.toLowerCase value.email ∉
        accounts.emails (accounts.store.replay s (others 0)) :=
      mt (accounts.mem_emails_replay (hothers 0)).mp hfree
    obtain ⟨hemail, hcreated⟩ := accounts.create hv req.seeds.salt req.seeds.newId
      req.seeds.storedAt (accounts.store.replay s (others 0)) hfree'
    obtain ⟨u, hu⟩ := hcreated (others 1)
    have hregister : registerFound P cfg req value none = Program.call (createCall P req value)
        (Program.onAnswer (registerCreated P cfg req)) := Program.await_bind _ _
    refine ⟨u, _, ?_, (accounts.mem_emails_replay (hothers 1)).mpr hemail⟩
    simp only [register_eq hv, Program.among, accounts.lookup_state, hview, Program.onAnswer_ok,
      hregister]
    rw [hu]
    rfl

end AccountStore

end LanguageGuru
