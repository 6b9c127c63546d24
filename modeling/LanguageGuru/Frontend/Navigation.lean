import LanguageGuru.Frontend.AuthSlice

/-!
# The navigation of the app

The app shows one screen at a time. The effects of a screen run after a render, with the values of
that render: they start the bootstrap, load the lists, or replace the screen by another one. The
logout button replaces its screen when the logout has ended, if that screen is still shown. Thunks,
renders, effects and buttons may come in any order, and renders may lag behind the state; still the
screen follows the session, and a few renders are enough for that.

## Main definitions

* `Screen`, `Rendered`, `App`: the screens, what their effects read, and the whole app
* `App.splashEffects`, `App.loginEffects`, `App.homeEffects`: the effects of the screens
* `AppEvent`, `App.step`: what can happen next, and what it does
* `App.AtRest`: the effects have run with the values of the state, and no logout goes on
* `App.FollowsSession`: the screen is that of the session
* `App.settling`: the ended logouts return, and two renders with their effects

## Main results

* `App.inv_step`: the invariant of the screens
* `App.reacts_effects`: what effects do to the screen
* `App.atRest_settled`: two renders with their effects bring the app to rest
* `screens_follow_the_session`: at rest the screen follows the session
-/

namespace LanguageGuru

open Process

/-- The routes of the navigator. -/
inductive Screen where
  | splash
  | login
  | home
  deriving DecidableEq, Repr

/-- What the effects of a screen read of a render. -/
structure Rendered where
  user : Option SanitizedUser
  isBootstrapping : Bool
  deriving DecidableEq, Repr

/-- The app: the client, the screen with the key of its route, what it was last rendered with and
what its effects last ran with, the logouts that were started from a route, each with the position
of its thunk, and the routes whose logout has ended. -/
structure App where
  client : Client
  screen : Screen
  route : ℕ
  rendered : Option Rendered
  effected : Option Rendered
  logouts : List (ℕ × ℕ)
  returned : List ℕ

/-- The app when it is started. -/
def initialApp (storage : SessionStorage) : App where
  client := initialClient storage
  screen := .splash
  route := 0
  rendered := none
  effected := none
  logouts := []
  returned := []

/-- `loadData` of the home screen. -/
def Client.loadData (c : Client) : Client := c.fetchLessons.fetchProgress

namespace App

variable (a : App)

/-- What a render reads of the state. -/
def values : Rendered := ⟨a.client.state.auth.user, a.client.state.auth.isBootstrapping⟩

/-- `navigation.replace`: a new route takes the place of the one that is shown. -/
def replace (screen : Screen) : App :=
  { a with screen, route := a.route + 1, rendered := none, effected := none }

def render : App := { a with rendered := some a.values }

/-! ## Effects -/

/-- The effects have run with the values `v`. -/
def ran (v : Rendered) : App := { a with effected := some v }

/-- The effects of `SplashScreen`. The first one runs once, and it starts the bootstrap. -/
def splashEffects (v : Rendered) : App :=
  let client := if a.effected = none then a.client.bootstrapSession else a.client
  let a := { a with client }.ran v
  if v.isBootstrapping then a
  else a.replace (if v.user.isSome then .home else .login)

/-- The effect of `LoginScreen`. -/
def loginEffects (v : Rendered) : App :=
  if v.user.isSome then (a.ran v).replace .home else a.ran v

/-- The effect of `HomeScreen`. -/
def homeEffects (v : Rendered) : App :=
  if v.user.isNone then (a.ran v).replace .login
  else { a.ran v with client := a.client.loadData }

/-- The effects of the screen that is shown run with the values of its last render. They may run
again with equal values, since the user of the state may be replaced by an equal one. -/
def effects : App :=
  match a.rendered with
  | none => a
  | some v =>
    match a.screen with
    | .splash => a.splashEffects v
    | .login => a.loginEffects v
    | .home => a.homeEffects v

/-! ## The logout button -/

/-- `onLogout` of the home screen up to its `await`. -/
def onLogout : App :=
  match a.screen with
  | .home =>
    { a with
      client := a.client.logoutUser
      logouts := a.logouts ++ [(a.client.thunks.length, a.route)] }
  | _ => a

/-- The routes whose logout ends with an event: its thunk goes on and is not rejected. -/
def endedBy : ClientEvent → List ℕ
  | .storageAwaited i =>
    match a.client.thunks[i]? with
    | some (.removingSession tokenRemoved userRemoved) =>
      match a.client.promiseAll tokenRemoved userRemoved with
      | some (.ok _) => (a.logouts.filter fun logout => logout.1 = i).map Prod.snd
      | _ => []
    | _ => []
  | _ => []

/-- `onLogout` after its `await`. A route that is not shown any more is not replaced. -/
def logoutReturns : App :=
  match a.returned with
  | [] => a
  | route :: returned =>
    if route = a.route then { a with returned }.replace .login else { a with returned }

end App

/-- What can happen next: something happens in the client, the screen is rendered, its effects run,
the logout button is pressed, or its handler goes on. -/
inductive AppEvent where
  | client (e : ClientEvent)
  | render
  | effects
  | onLogout
  | logoutReturns

def App.step (J : UserJson) (a : App) : AppEvent → App
  | .client e => { a with client := a.client.step J e, returned := a.returned ++ a.endedBy e }
  | .render => a.render
  | .effects => a.effects
  | .onLogout => a.onLogout
  | .logoutReturns => a.logoutReturns

namespace App

variable (a : App)

/-- The effects have run with the values of the state, and no logout of this route goes on. -/
structure AtRest : Prop where
  rendered : a.rendered = some a.values
  effected : a.effected = some a.values
  returned : a.route ∉ a.returned

/-- A bootstrap has not read the storage yet. -/
def Bootstraps : Prop := ∃ i x y : ℕ, a.client.thunks[i]? = some (.readingSession x y)

/-- The screen is that of the session: the splash screen while a bootstrap reads the storage, the
login screen without a session, and the home screen with one. -/
def FollowsSession : Prop :=
  let auth := a.client.state.auth
  match a.screen with
  | .splash => auth.isBootstrapping = true ∧ a.Bootstraps
  | .login => auth.isBootstrapping = false ∧ auth.user = none ∧ auth.token = none
  | .home => auth.isBootstrapping = false ∧ auth.user ≠ none ∧ auth.token ≠ none

/-- Effects that run with these values do not replace the screen. -/
def Stays (screen : Screen) (v : Rendered) : Prop :=
  match screen with
  | .splash => v.isBootstrapping = true
  | .login => v.user = none
  | .home => v.user ≠ none

/-- The invariant: the screen stays with the values that its effects last ran with, no render is
ahead of the bootstrapping, the splash screen is shown until it has ended, and logouts are started
from home screens. -/
structure Inv (J : UserJson) : Prop where
  client : a.client.AuthInv J
  stays : ∀ v, a.effected = some v → Stays a.screen v
  rendered : ∀ v, a.rendered = some v → v.isBootstrapping = false →
    a.values.isBootstrapping = false
  left : a.screen ≠ .splash → a.values.isBootstrapping = false
  started : a.screen = .splash → a.effected ≠ none → a.values.isBootstrapping = true →
    a.Bootstraps
  pressed : ∀ route ∈ a.logouts.map Prod.snd ++ a.returned,
    route ≤ a.route ∧ (route = a.route → a.screen = .home)

/-! ## The invariant -/

section Invariant

variable {a} {J : UserJson}

theorem inv_initialApp (storage : SessionStorage)
    (hstored : ∀ text, storage.user = some text → J.NotNull text) :
    (initialApp storage).Inv J where
  client := Client.authInv_initialClient storage hstored
  stays _ h := nomatch h
  rendered _ h := nomatch h
  left h := absurd rfl h
  started _ h := absurd rfl h
  pressed _ h := nomatch h

/-- Something happens in the client. -/
theorem Inv.client_step (hjson : J.ReadsBack) (h : a.Inv J) (e : ClientEvent)
    {logouts : List (ℕ × ℕ)} {returned : List ℕ}
    (hpressed : ∀ route ∈ logouts.map Prod.snd ++ returned,
      route ≤ a.route ∧ (route = a.route → a.screen = .home)) :
    { a with client := a.client.step J e, logouts, returned }.Inv J := by
  have hdone : a.values.isBootstrapping = false →
      (a.client.step J e).state.auth.isBootstrapping = false :=
    (Client.auth_effect h.client.stored e).bootstrapped
  refine ⟨Client.authInv_step hjson _ e h.client, h.stays, fun v hv hended => ?_, fun hleft => ?_,
    fun hsplash heffected hbootstrapping => ?_, hpressed⟩
  · exact hdone (h.rendered v hv hended)
  · exact hdone (h.left hleft)
  · cases hold : a.values.isBootstrapping with
    | false => cases (hdone hold).symm.trans hbootstrapping
    | true =>
      obtain ⟨i, x, y, hreads⟩ := h.started hsplash heffected hold
      rcases Client.bootstrap_step (J := J) e hreads with hreads | hended
      · exact ⟨i, x, y, hreads⟩
      · cases hended.symm.trans hbootstrapping

/-- A screen is replaced by another one than the splash screen when bootstrapping has ended. -/
theorem Inv.replace (h : a.Inv J) {screen : Screen} (hscreen : screen ≠ .splash)
    (hdone : a.values.isBootstrapping = false) : (a.replace screen).Inv J where
  client := h.client
  stays _ h := nomatch h
  rendered _ h := nomatch h
  left _ := hdone
  started h := absurd h hscreen
  pressed route hroute := by
    have hle := (h.pressed route hroute).1
    refine ⟨Nat.le_succ_of_le hle, fun heq => ?_⟩
    have hnew : route = a.route + 1 := heq
    omega

/-- The effects run and do not replace the screen. -/
theorem Inv.ran (h : a.Inv J) {v : Rendered} (hstays : Stays a.screen v)
    (hstarted : a.screen = .splash → a.values.isBootstrapping = true → a.Bootstraps) :
    (a.ran v).Inv J where
  client := h.client
  stays _ hv := Option.some.inj hv ▸ hstays
  rendered := h.rendered
  left := h.left
  started hsplash _ := hstarted hsplash
  pressed := h.pressed

theorem Inv.splashEffects (hjson : J.ReadsBack) (h : a.Inv J) (hscreen : a.screen = .splash)
    {v : Rendered} (hv : a.rendered = some v) : (a.splashEffects v).Inv J := by
  -- the first effect starts the bootstrap, if it has not done so before
  have hfirst : ∃ client, (if a.effected = none then a.client.bootstrapSession else a.client) =
      client ∧ { a with client }.Inv J ∧
        (client.state.auth.isBootstrapping = true → { a with client }.Bootstraps) := by
    by_cases hnone : a.effected = none
    · refine ⟨_, if_pos hnone, h.client_step hjson .bootstrapSession h.pressed, fun _ => ?_⟩
      exact ⟨a.client.thunks.length, _, _, List.getElem?_concat_length⟩
    · exact ⟨_, if_neg hnone, h, h.started hscreen hnone⟩
  obtain ⟨client, hclient, hinv, hbootstraps⟩ := hfirst
  unfold App.splashEffects
  rw [hclient]
  dsimp only
  split_ifs with hbootstrapping hsome
  · apply hinv.ran
    · rw [hscreen]
      exact hbootstrapping
    · exact fun _ => hbootstraps
  all_goals
    refine Inv.replace (a := { a with client }) hinv (by decide) ?_
    exact hinv.rendered v hv (Bool.eq_false_iff.mpr hbootstrapping)

theorem Inv.loginEffects (h : a.Inv J) (hscreen : a.screen = .login) (v : Rendered) :
    (a.loginEffects v).Inv J := by
  have hdone := h.left (by simp [hscreen])
  unfold App.loginEffects
  split_ifs with hsome
  · exact Inv.replace (a := a) h (by decide) hdone
  · apply h.ran
    · rw [hscreen]
      exact Option.not_isSome_iff_eq_none.mp hsome
    · intro hsplash
      cases hscreen.symm.trans hsplash

theorem Inv.homeEffects (hjson : J.ReadsBack) (h : a.Inv J) (hscreen : a.screen = .home)
    (v : Rendered) : (a.homeEffects v).Inv J := by
  have hdone := h.left (by simp [hscreen])
  unfold App.homeEffects
  split_ifs with hnone
  · exact Inv.replace (a := a) h (by decide) hdone
  · have hran : (a.ran v).Inv J := by
      apply h.ran
      · rw [hscreen]
        exact fun hnull => hnone (Option.isNone_iff_eq_none.mpr hnull)
      · intro hsplash
        cases hscreen.symm.trans hsplash
    have hlessons := hran.client_step hjson .fetchLessons hran.pressed
    exact hlessons.client_step hjson .fetchProgress hlessons.pressed

/-- Only logouts that were started end. -/
theorem endedBy_subset (a : App) (e : ClientEvent) : a.endedBy e ⊆ a.logouts.map Prod.snd := by
  intro route hroute
  unfold endedBy at hroute
  split at hroute
  · split at hroute
    · split at hroute
      · exact ((List.filter_sublist).map Prod.snd).subset hroute
      · cases hroute
    · cases hroute
  · cases hroute

/-- **The invariant is kept.** -/
theorem inv_step (hjson : J.ReadsBack) (a : App) (e : AppEvent) (h : a.Inv J) :
    (a.step J e).Inv J := by
  cases e with
  | client e =>
    apply h.client_step hjson e
    intro route hroute
    rw [← List.append_assoc] at hroute
    rcases List.mem_append.mp hroute with hold | hended
    · exact h.pressed route hold
    · exact h.pressed route (List.mem_append_left _ (a.endedBy_subset e hended))
  | render =>
    refine ⟨h.client, h.stays, fun v hv hended => ?_, h.left, h.started, h.pressed⟩
    obtain rfl := Option.some.inj hv
    exact hended
  | effects =>
    show a.effects.Inv J
    unfold App.effects
    split
    · exact h
    · rename_i v hv
      cases hscreen : a.screen with
      | splash => exact h.splashEffects hjson hscreen hv
      | login => exact h.loginEffects hscreen v
      | home => exact h.homeEffects hjson hscreen v
  | onLogout =>
    show a.onLogout.Inv J
    unfold App.onLogout
    split
    · rename_i hscreen
      apply h.client_step hjson .logoutUser
      intro route hroute
      rw [List.map_append, List.append_assoc] at hroute
      rcases List.mem_append.mp hroute with hold | hnew
      · exact h.pressed route (List.mem_append_left _ hold)
      · rcases List.mem_cons.mp hnew with rfl | hold
        · exact ⟨le_rfl, fun _ => hscreen⟩
        · exact h.pressed route (List.mem_append_right _ hold)
    · exact h
  | logoutReturns =>
    show a.logoutReturns.Inv J
    unfold App.logoutReturns
    split
    · exact h
    · rename_i route returned hreturned
      have hpressed : ∀ r ∈ a.logouts.map Prod.snd ++ route :: returned,
          r ≤ a.route ∧ (r = a.route → a.screen = .home) := hreturned ▸ h.pressed
      have hpopped : { a with returned }.Inv J := by
        refine ⟨h.client, h.stays, h.rendered, h.left, h.started, fun r hr => hpressed r ?_⟩
        rcases List.mem_append.mp hr with hold | hold
        · exact List.mem_append_left _ hold
        · exact List.mem_append_right _ (List.mem_cons_of_mem _ hold)
      split_ifs with hroute
      · apply hpopped.replace (by decide)
        -- the route that is shown is that of the home screen
        have hhome := (hpressed route (List.mem_append_right _ List.mem_cons_self)).2 hroute
        exact h.left (by simp [hhome])
      · exact hpopped

/-- **At rest the screen follows the session.** -/
theorem Inv.followsSession (h : a.Inv J) (hrest : a.AtRest) : a.FollowsSession := by
  have hstays : Stays a.screen a.values := h.stays _ hrest.effected
  have hleft := h.left
  have hstarted := h.started
  have htoken := h.client.consistent.session
  unfold FollowsSession
  cases hscreen : a.screen with
  | splash =>
    rw [hscreen] at hstays
    exact ⟨hstays, hstarted hscreen (by simp [hrest.effected]) hstays⟩
  | login =>
    rw [hscreen] at hstays
    exact ⟨hleft (by simp [hscreen]), hstays, htoken.mp hstays⟩
  | home =>
    rw [hscreen] at hstays
    exact ⟨hleft (by simp [hscreen]), hstays, fun hnone => hstays (htoken.mpr hnone)⟩

end Invariant

/-! ## Coming to rest -/

section Rest

variable {a} {J : UserJson} {v : Rendered}

/-- Effects with the values `v` lead from `a` to `b`: they leave the screen when it does not stay
with these values, for one that does, and they leave what a render reads alone. -/
def Reacts (a : App) (v : Rendered) (b : App) : Prop :=
  ∃ client : Client, { a with client }.values = a.values ∧
    (Stays a.screen v ∧ b = { a with client }.ran v ∨
      ¬ Stays a.screen v ∧ ∃ screen, Stays screen v ∧
        b = ({ a with client }.ran v).replace screen)

theorem reacts_splashEffects (hscreen : a.screen = .splash) (v : Rendered) :
    a.Reacts v (a.splashEffects v) := by
  have hstays : Stays a.screen v ↔ v.isBootstrapping = true := by rw [hscreen]; exact Iff.rfl
  refine ⟨if a.effected = none then a.client.bootstrapSession else a.client, ?_, ?_⟩
  · split_ifs <;> rfl
  · rw [hstays]
    unfold splashEffects
    generalize (if a.effected = none then a.client.bootstrapSession else a.client) = client
    dsimp only
    by_cases hbootstrapping : v.isBootstrapping = true
    · rw [if_pos hbootstrapping]
      exact .inl ⟨hbootstrapping, rfl⟩
    · rw [if_neg hbootstrapping]
      refine .inr ⟨hbootstrapping, _, ?_, rfl⟩
      split_ifs with hsome
      · exact Option.ne_none_iff_isSome.mpr hsome
      · exact Option.not_isSome_iff_eq_none.mp hsome

theorem reacts_loginEffects (hscreen : a.screen = .login) (v : Rendered) :
    a.Reacts v (a.loginEffects v) := by
  have hstays : Stays a.screen v ↔ v.user = none := by rw [hscreen]; exact Iff.rfl
  refine ⟨a.client, rfl, ?_⟩
  rw [hstays]
  unfold loginEffects
  split_ifs with hsome
  · have huser : v.user ≠ none := Option.ne_none_iff_isSome.mpr hsome
    exact .inr ⟨huser, .home, huser, rfl⟩
  · exact .inl ⟨Option.not_isSome_iff_eq_none.mp hsome, rfl⟩

theorem reacts_homeEffects (hscreen : a.screen = .home) (v : Rendered) :
    a.Reacts v (a.homeEffects v) := by
  have hstays : Stays a.screen v ↔ v.user ≠ none := by rw [hscreen]; exact Iff.rfl
  unfold Reacts homeEffects
  rw [hstays]
  split_ifs with hnone
  · have huser : v.user = none := Option.isNone_iff_eq_none.mp hnone
    exact ⟨a.client, rfl, .inr ⟨fun hne => hne huser, .login, huser, rfl⟩⟩
  · have huser : v.user ≠ none := fun hnull => hnone (Option.isNone_iff_eq_none.mpr hnull)
    exact ⟨a.client.loadData, rfl, .inl ⟨huser, rfl⟩⟩

theorem reacts_effects (hv : a.rendered = some v) : a.Reacts v a.effects := by
  unfold effects
  rw [hv]
  dsimp only
  split
  · rename_i hscreen
    exact reacts_splashEffects hscreen v
  · rename_i hscreen
    exact reacts_loginEffects hscreen v
  · rename_i hscreen
    exact reacts_homeEffects hscreen v

theorem effects_of_unrendered (hv : a.rendered = none) : a.effects = a := by
  unfold effects
  rw [hv]

/-- Effects leave the values that a render reads, and the logouts that have ended. -/
theorem effects_frame (a : App) :
    a.effects.values = a.values ∧ a.effects.returned = a.returned := by
  cases hv : a.rendered with
  | none =>
    rw [effects_of_unrendered hv]
    exact ⟨rfl, rfl⟩
  | some v =>
    obtain ⟨client, hvalues, ⟨-, heffects⟩ | ⟨-, screen, -, heffects⟩⟩ := reacts_effects hv
    · rw [heffects]
      exact ⟨hvalues, rfl⟩
    · rw [heffects]
      exact ⟨hvalues, rfl⟩

/-- After effects with the values of the state, the screen stays with them. -/
theorem stays_effects (hv : a.rendered = some a.values) : Stays a.effects.screen a.values := by
  obtain ⟨client, -, ⟨hstays, heffects⟩ | ⟨-, screen, hstays, heffects⟩⟩ := reacts_effects hv
  · rw [heffects]
    exact hstays
  · rw [heffects]
    exact hstays

/-- Effects of a screen that stays bring the app to rest. -/
theorem atRest_effects (hv : a.rendered = some a.values) (hstays : Stays a.screen a.values)
    (hreturned : a.returned = []) : a.effects.AtRest := by
  obtain ⟨client, hvalues, ⟨-, heffects⟩ | ⟨hleft, -⟩⟩ := reacts_effects hv
  · rw [heffects]
    exact ⟨hv.trans (congrArg some hvalues.symm), congrArg some hvalues.symm,
      fun hroute => by simp [ran, hreturned] at hroute⟩
  · exact absurd hstays hleft

/-- The handlers of the logouts that have ended go on. -/
theorem returned_run_logoutReturns (J : UserJson) (a : App) :
    let b := run (App.step J) a (List.replicate a.returned.length .logoutReturns)
    b.returned = [] ∧ b.values = a.values := by
  generalize hreturned : a.returned = returned
  induction returned generalizing a with
  | nil => exact ⟨hreturned, rfl⟩
  | cons route returned ih =>
    have hpopped : a.logoutReturns.returned = returned ∧ a.logoutReturns.values = a.values := by
      unfold App.logoutReturns
      rw [hreturned]
      dsimp only
      split_ifs
      · exact ⟨rfl, rfl⟩
      · exact ⟨rfl, rfl⟩
    obtain ⟨hdone, hvalues⟩ := ih a.logoutReturns hpopped.1
    exact ⟨hdone, hvalues.trans hpopped.2⟩

/-- **Two renders with their effects bring the app to rest**: after the first one the screen stays
with the values of the state, so that the effects of the second one do not replace it. -/
theorem atRest_of_renders (J : UserJson) (hreturned : a.returned = []) :
    let b := run (App.step J) a [.render, .effects, .render, .effects]
    b.AtRest ∧ b.values = a.values := by
  have hfirst : a.render.effects.values = a.values := (effects_frame a.render).1
  have hstays : Stays a.render.effects.screen a.render.effects.values := by
    rw [hfirst]
    exact stays_effects rfl
  have hnone : a.render.effects.returned = [] := (effects_frame a.render).2.trans hreturned
  have hrest : a.render.effects.render.effects.AtRest := atRest_effects rfl hstays hnone
  have hsecond := (effects_frame a.render.effects.render).1
  exact ⟨hrest, hsecond.trans hfirst⟩

/-- What brings the app to rest: the logouts that have ended return, and two renders. -/
def settling (a : App) : List AppEvent :=
  List.replicate a.returned.length .logoutReturns ++ [.render, .effects, .render, .effects]

theorem atRest_settled (J : UserJson) (a : App) :
    (run (App.step J) a a.settling).AtRest ∧
      (run (App.step J) a a.settling).values = a.values := by
  obtain ⟨hreturned, hvalues⟩ := returned_run_logoutReturns J a
  obtain ⟨hrest, hsame⟩ := atRest_of_renders J hreturned
  unfold settling
  rw [run_append]
  exact ⟨hrest, hsame.trans hvalues⟩

end Rest

end App

/-- **The screen follows the session.** However thunks, renders, effects and logouts are
interleaved, at rest the app shows the screen of its session; and when nothing else happens, the
ended logouts and two renders with their effects bring it to rest and leave its session alone. -/
theorem screens_follow_the_session (J : UserJson) (hjson : J.ReadsBack) (storage : SessionStorage)
    (hstored : ∀ text, storage.user = some text → J.NotNull text) (events : List AppEvent) :
    let a := run (App.step J) (initialApp storage) events
    let b := run (App.step J) a a.settling
    (a.AtRest → a.FollowsSession) ∧ b.AtRest ∧ b.FollowsSession ∧ b.values = a.values := by
  intro a b
  have hinv : a.Inv J :=
    run_invariant (App.inv_step hjson) (App.inv_initialApp storage hstored) events
  have hsettled : b.Inv J := run_invariant (App.inv_step hjson) hinv a.settling
  obtain ⟨hrest, hvalues⟩ := App.atRest_settled J a
  exact ⟨hinv.followsSession, hrest, hsettled.followsSession hrest, hvalues⟩

/-- The app of a signed-in user comes to rest at the home screen, and at the login screen after a
logout. -/
theorem signed_in_app_rests_at_home :
    let starts : List AppEvent := [.render, .effects, .client (.storageCompletes 1),
      .client (.storageCompletes 0), .client (.storageAwaited 0), .render, .effects, .render]
    let logsOut : List AppEvent := [.onLogout, .client (.storageCompletes 2),
      .client (.storageCompletes 3), .client (.storageAwaited 1)]
    let rested (events : List AppEvent) : App :=
      let a := run (App.step userJson) (initialApp signedInStorage) events
      run (App.step userJson) a a.settling
    (rested starts).FollowsSession ∧ (rested starts).screen = .home ∧
      (rested (starts ++ logsOut)).FollowsSession ∧
      (rested (starts ++ logsOut)).screen = .login := by
  intro starts logsOut rested
  obtain ⟨hhome, hlogin⟩ : (rested starts).screen = .home ∧
      (rested (starts ++ logsOut)).screen = .login := by
    decide +kernel
  have hfollows : ∀ events, (rested events).FollowsSession := fun events =>
    (screens_follow_the_session userJson userJson_readsBack signedInStorage
      notNull_signedInStorage events).2.2.1
  clear_value starts logsOut rested
  exact ⟨hfollows _, hhome, hfollows _, hlogin⟩

end LanguageGuru
