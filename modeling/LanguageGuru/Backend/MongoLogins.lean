import LanguageGuru.Backend.MongoInterleavings

/-!
# Concurrent logins on the MongoDB store

A login that asks for another role stores it and answers with the document after the update. The
store hands out copies, so what other logins of the account store meanwhile does not show in the
answer: every login reports the role that it asked for. On the memory store, which hands out
references to the live records, a login may report the role of another one.

## Main results

* `guarded_serveMongo`: the segments of a handler report roles only as they were asked for
* `mongo_logins_report_roles`: in every interleaving, logins report the roles they asked for
-/

namespace LanguageGuru

open Process

variable {P : Platform} {M : Mongoose} {cfg : Config} {req : Request}

/-- The traces in which a login reports no role but the one it asked for. -/
def roleContract (P : Platform) : Contract Request StoreCall Response MongoState where
  Inv _ := True
  Rely _ _ := True
  Allows r tr := ReportsRole P r (Event.outputs tr)
  refl _ := trivial
  trans _ _ := trivial

/-- A trace without an output reports nothing. -/
theorem reportsRole_of_silent {tr : List (Event StoreCall Response)}
    (h : Event.outputs tr = []) : ReportsRole P req (Event.outputs tr) := by
  rw [h]
  intro _ _ _ _ hmem
  cases hmem

/-- What a role that was stored is answered with. -/
theorem role_of_updateUserRole {id role : String} {s : MongoState} {user : User}
    (h : ((mongoStore P M).perform (.updateUserRole id role) s).1 = .ok (some user)) :
    user.role = role := by
  rw [perform_updateUserRole] at h
  split_ifs at h
  obtain ⟨u, -, rfl⟩ := Option.map_eq_some_iff.mp (Except.ok.inj h)
  rfl

/-- A handler that answers after calls that it has made in silence. -/
theorem guarded_send {response : Response} {tr : List (Event StoreCall Response)} {s : MongoState}
    (hsilent : Event.outputs tr = []) (h : ReportsRole P req [response]) :
    (Program.send response : Handler).Guarded (mongoStore P M) (roleContract P) req tr s := by
  refine ⟨?_, trivial⟩
  show ReportsRole P req (Event.outputs (tr ++ [.sent response]))
  rw [Event.outputs_append, hsilent]
  exact h

/-- A login, after its email is looked up. -/
theorem guarded_loginFound {value : LoginValue} (hv : req.login P = some value)
    {tr : List (Event StoreCall Response)} (hsilent : Event.outputs tr = []) (found : Option User)
    (s : MongoState) :
    (loginFound P cfg req value found).Guarded (mongoStore P M) (roleContract P) req tr s := by
  cases found with
  | none => exact guarded_send hsilent (reportsRole_of_status (by decide))
  | some user =>
    by_cases hpass : P.compareSync value.password user.passwordHash = false
    · rw [loginFound, if_pos hpass]
      exact guarded_send hsilent (reportsRole_of_status (by decide))
    · rw [loginFound_some hpass]
      split_ifs with hasks
      · have hcalled : Event.outputs (tr ++ [.called (.updateUserRole user.id
            (requestedRole value))]) = [] := by
          rw [Event.outputs_append, hsilent]
          rfl
        refine ⟨reportsRole_of_silent hcalled, trivial, trivial, fun s' _ _ => ?_⟩
        have hview : ∀ hd, (mongoStore P M).view
            (.updateUserRole user.id (requestedRole value)) hd s' = hd := fun _ => rfl
        rw [hview]
        -- the answer is the document after the update
        cases hanswer : ((mongoStore P M).perform
            (.updateUserRole user.id (requestedRole value)) s).1 with
        | error failure => exact trivial
        | ok answer =>
          cases answer with
          | none => exact trivial
          | some updated =>
            refine guarded_send hcalled (reportsRole_of_session hv (fun _ => ?_) _)
            exact role_of_updateUserRole hanswer
      · refine guarded_send hsilent (reportsRole_of_session hv (fun hasked => ?_) _)
        by_contra hne
        exact hasks ⟨hasked, Ne.symm hne⟩

/-- The segments of a handler report roles only as they were asked for. -/
theorem guarded_serveMongo (P : Platform) (M : Mongoose) (cfg : Config) (req : Request)
    (s : MongoState) :
    (serveMongo P cfg req).Guarded (mongoStore P M) (roleContract P) req [] s := by
  cases hv : req.login P with
  | none =>
    -- other requests report nothing
    have hother : ∀ tr, (roleContract P).Allows req tr := by
      intro tr value hv'
      rw [hv] at hv'
      cases hv'
    refine (serveMongo P cfg req).within_true.guarded (Q := fun _ => True) ?_
      (fun tr _ => hother tr) (fun _ _ _ _ => trivial) (fun _ _ _ _ => trivial) trivial trivial
    exact fun _ _ _ _ => ⟨trivial, trivial⟩
  | some value =>
    rw [serveMongo_of_login hv]
    refine ⟨reportsRole_of_silent rfl, trivial, trivial, fun s' _ _ => ?_⟩
    exact guarded_loginFound hv rfl (s.userByEmail P value.email) s'

/-- **Logins on the MongoDB store report the roles that they asked for**, however the handlers of
the requests are interleaved. -/
theorem mongo_logins_report_roles (P : Platform) (M : Mongoose) (cfg : Config) (s₀ : MongoState)
    (as : List (Action Request)) :
    ∀ t ∈ (runMongo P M cfg s₀ as).tasks, ReportsRole P t.request t.outputs := by
  have hsound := Pool.sound_run (V := mongoStore P M) (K := roleContract P)
    (fun r s _ => guarded_serveMongo P M cfg r s) (fun r => reportsRole_of_silent rfl)
    (s := s₀) trivial as
  exact hsound.allows

/-- The second of two overlapping logins of the demo account that ask for different roles. -/
theorem second_role_reported :
    let s₀ : MongoState :=
      ⟨true, [demoUser plainPlatform "64b000000000000000000000" "salt" 0], [], []⟩
    let pool := runMongo plainPlatform plainMongoose plainConfig s₀
      ([plainRoleLogin "demo@languageguru.app" "demo1234" "Data Analyst",
        plainRoleLogin "demo@languageguru.app" "demo1234" "Product Manager"].map Action.arrive ++
          [0, 0, 1, 1, 0, 1].map Action.resume)
    ∃ t, pool.tasks[1]? = some t ∧ t.outputs.map Response.status = [200] ∧
      ReportsRole plainPlatform t.request t.outputs := by
  intro s₀ pool
  have hanswered : pool.tasks[1]?.map (fun t => t.outputs.map Response.status) = some [200] := by
    decide +kernel
  obtain ⟨t, ht, hstatus⟩ := Option.map_eq_some_iff.mp hanswered
  refine ⟨t, ht, hstatus, ?_⟩
  exact mongo_logins_report_roles plainPlatform plainMongoose plainConfig s₀ _ t
    (List.mem_of_getElem? ht)

end LanguageGuru
