import LanguageGuru.Backend.Answering
import LanguageGuru.Backend.MemoryStore
import LanguageGuru.Backend.RateLimit

/-!
# The middleware chain

The requests that the application serves one after another. The chain begins with `express.json`,
and a body that it refuses goes straight to the error handler: such a request is answered without
being counted and without the headers of the other middlewares. Every other request that is no
preflight passes all of them.

## Main definitions

* `Server`, `Server.serve`: the state of the application, and what it does for a request
* `Server.after`, `Server.deliveries`: the state after some requests, and what the clients receive
* `guardHeaders`: the headers that CORS and the security middleware set
* `NothingSlipsPast`: requests are counted and limited, and responses carry the headers

## Main results

* `createApp_parsed`, `createApp_refused`, `createApp_preflight`: the chain for a request
* `requestsByIp_after`: the counters are those of the limiter, run on the accepted requests
* `nothing_slips_past_iff`: nothing slips past when every body is accepted
-/

namespace LanguageGuru

open Process Process.FixedWindow

/-! ## The chain -/

section Chain

variable (P : Platform) (cfg : Config) (mode : String) (req : Request)

/-- The headers that the CORS middleware and the security middleware set. -/
def guardHeaders : List (String × String) :=
  (securityHeaders req (corsMiddleware cfg req ⟨.empty, []⟩).1).1.headers

/-- The two middlewares set the same headers whatever the counters are. -/
theorem guard_eq (m : OrderedMap String ℕ) :
    (securityHeaders req (corsMiddleware cfg req ⟨m, []⟩).1).1 = ⟨m, guardHeaders cfg req⟩ := by
  unfold guardHeaders corsMiddleware
  cases allowOrigin cfg req.origin <;> split_ifs <;> rfl

/-- The limiter keeps the headers and does not look at them. -/
theorem rateLimit_headers (requestLimit : ℕ) (m : OrderedMap String ℕ)
    (headers : List (String × String)) :
    (rateLimit requestLimit req ⟨m, headers⟩).1 =
      ⟨(rateLimit requestLimit req ⟨m, []⟩).1.requestsByIp, headers⟩ := by
  rw [rateLimit_eq, rateLimit_eq]
  split_ifs <;> rfl

variable {req}

/-- A request with an accepted body that is no preflight gets the headers and is counted. It is
routed when the limiter passes it on, and rejected otherwise. -/
theorem createApp_parsed (hm : req.method ≠ .options) {body : Json}
    (hp : req.payload = .parsed body) (m : OrderedMap String ℕ) :
    createApp P cfg mode req ⟨m, []⟩ =
      (⟨(rateLimit cfg.requestLimit req ⟨m, []⟩).1.requestsByIp, guardHeaders cfg req⟩,
        if counter m req.arrival < cfg.requestLimit then routers P cfg mode req body
        else sendJson 429 (.error "Too many requests, try again later.")) := by
  have hcors : (corsMiddleware cfg req ⟨m, []⟩).2 = .next := by
    simp only [corsMiddleware, if_neg hm]
  have hguard := guard_eq cfg req m
  rw [← rateLimit_headers]
  unfold createApp middlewares
  -- one middleware after another: CORS, security, the limiter
  simp only [dispatch, expressJson, hp]
  rcases hc : corsMiddleware cfg req ⟨m, []⟩ with ⟨x, v⟩
  rw [hc] at hcors hguard
  obtain rfl : v = .next := hcors
  rcases hs : securityHeaders req x with ⟨y, w⟩
  have hw : w = .next := congrArg Prod.snd hs.symm
  rw [hs] at hguard
  obtain rfl : y = ⟨m, guardHeaders cfg req⟩ := hguard
  subst hw
  have hbody : req.body = body := by simp only [Request.body, hp]
  simp only [hs, rateLimit_eq, requestLogger, hbody]
  by_cases hpass : counter m req.arrival < cfg.requestLimit
  · rw [if_pos hpass, if_neg (by omega)]
    split_ifs <;> rfl
  · rw [if_neg hpass, if_pos (by omega)]
    rfl

/-- A request with a refused body goes straight to the error handler. -/
theorem createApp_refused {status : ℕ} (hp : req.payload = .refused status) (x : Exchange) :
    createApp P cfg mode req x = (x, errorHandler) := by
  simp only [createApp, middlewares, dispatch, expressJson, hp]

/-- A preflight with an accepted body is answered by the CORS middleware. -/
theorem createApp_preflight (hm : req.method = .options) {body : Json}
    (hp : req.payload = .parsed body) (m : OrderedMap String ℕ) :
    createApp P cfg mode req ⟨m, []⟩ =
      ((corsMiddleware cfg req ⟨m, []⟩).1, sendJson 204 .empty) := by
  have hcors : (corsMiddleware cfg req ⟨m, []⟩).2 = .respond ⟨204, .empty⟩ := by
    simp only [corsMiddleware, if_pos hm]
  unfold createApp middlewares
  simp only [dispatch, expressJson, hp]
  rcases hc : corsMiddleware cfg req ⟨m, []⟩ with ⟨x, v⟩
  rw [hc] at hcors
  obtain rfl : v = .respond ⟨204, .empty⟩ := hcors
  rfl

/-- A preflight is not counted. -/
theorem requestsByIp_preflight (hm : req.method = .options) (m : OrderedMap String ℕ) :
    (createApp P cfg mode req ⟨m, []⟩).1.requestsByIp = m := by
  cases hp : req.payload with
  | refused status => rw [createApp_refused P cfg mode hp]
  | parsed body =>
    rw [createApp_preflight P cfg mode hm hp]
    exact congrArg Exchange.requestsByIp (guard_eq cfg req m)

end Chain

/-! ## The application, request after request -/

section Server

variable (P : Platform) (cfg : Config) (mode : String) {S : Type} (V : Store S)

/-- The counters of the limiter and the state of the store. -/
structure Server (S : Type) where
  requestsByIp : OrderedMap String ℕ
  store : S

/-- What a client receives: the headers that the middlewares set, and the response. -/
structure Delivery where
  headers : List (String × String)
  response : Response

/-- The deliveries to a request, and the state it leaves. -/
def Server.serve (σ : Server S) (req : Request) : List Delivery × Server S :=
  let app := createApp P cfg mode req ⟨σ.requestsByIp, []⟩
  let outcome := app.2.exec V σ.store
  (outcome.sent.map fun r => ⟨app.1.headers, r⟩, ⟨app.1.requestsByIp, outcome.state⟩)

/-- The state after requests that are served one after another. -/
def Server.after (σ : Server S) (reqs : List Request) : Server S :=
  run (fun σ req => (σ.serve P cfg mode V req).2) σ reqs

/-- The deliveries to the requests, each with its request. -/
def Server.deliveries : Server S → List Request → List (Request × Delivery)
  | _, [] => []
  | σ, req :: reqs =>
    (σ.serve P cfg mode V req).1.map (req, ·) ++
      Server.deliveries (σ.serve P cfg mode V req).2 reqs

/-- The server with the store state `s` when it starts. -/
def initialServer (s : S) : Server S := ⟨.empty, s⟩

/-- No request but a preflight slips past the middlewares: it is counted, an address gets at most
`requestLimit` responses other than 429 in a minute, and each of them carries the headers. -/
structure NothingSlipsPast (s : S) (reqs : List Request) : Prop where
  counted : ∀ past req, past ++ [req] <+: reqs → req.method ≠ .options →
    counter ((initialServer s).after P cfg mode V (past ++ [req])).requestsByIp req.arrival =
      counter ((initialServer s).after P cfg mode V past).requestsByIp req.arrival + 1
  limited : ∀ ip minuteBucket,
    (((initialServer s).deliveries P cfg mode V reqs).countP fun d =>
      d.1.method ≠ .options ∧ d.1.ip = ip ∧ d.1.minuteBucket = minuteBucket ∧
        d.2.response.status ≠ 429) ≤ cfg.requestLimit
  guarded : ∀ d ∈ (initialServer s).deliveries P cfg mode V reqs, d.1.method ≠ .options →
    d.2.response.status ≠ 429 → ∀ h ∈ guardHeaders cfg d.1, h ∈ d.2.headers

/-- The requests that are no preflights. -/
def withoutPreflights (reqs : List Request) : List Request :=
  reqs.filter fun r => r.method ≠ .options

variable {P cfg mode V} {σ : Server S} {req : Request}

theorem serve_parsed (hm : req.method ≠ .options) {body : Json} (hp : req.payload = .parsed body) :
    (σ.serve P cfg mode V req).2.requestsByIp =
        (rateLimit cfg.requestLimit req ⟨σ.requestsByIp, []⟩).1.requestsByIp ∧
      ∀ d ∈ (σ.serve P cfg mode V req).1, d.headers = guardHeaders cfg req := by
  simp only [Server.serve, createApp_parsed P cfg mode hm hp, List.mem_map]
  refine ⟨trivial, ?_⟩
  rintro d ⟨r, -, rfl⟩
  rfl

theorem serve_refused {status : ℕ} (hp : req.payload = .refused status) :
    (σ.serve P cfg mode V req).2.requestsByIp = σ.requestsByIp := by
  simp only [Server.serve, createApp_refused P cfg mode hp]

theorem serve_preflight (hm : req.method = .options) :
    (σ.serve P cfg mode V req).2.requestsByIp = σ.requestsByIp :=
  requestsByIp_preflight P cfg mode hm σ.requestsByIp

/-- A request is delivered one response at most. -/
theorem length_serve_le (σ : Server S) (req : Request) :
    (σ.serve P cfg mode V req).1.length ≤ 1 := by
  obtain ⟨hgood, hbad⟩ :=
    (answers_createApp P cfg mode req ⟨σ.requestsByIp, []⟩).exec V σ.store
  rw [Server.serve, List.length_map]
  by_cases h : ∀ e ∈ (createApp P cfg mode req ⟨σ.requestsByIp, []⟩).2.journal V σ.store,
      ¬ Unanswerable e
  · exact (hgood h).le
  · push Not at h
    rw [hbad h]
    exact Nat.zero_le 1

/-- Every request but a preflight has a body that `express.json` accepts. -/
def Accepted (reqs : List Request) : Prop :=
  ∀ req ∈ reqs, req.method ≠ .options → ∃ body, req.payload = .parsed body

theorem Accepted.of_cons {reqs : List Request} (h : Accepted (req :: reqs)) : Accepted reqs :=
  fun r hr => h r (List.mem_cons_of_mem _ hr)

theorem after_snoc (σ : Server S) (past : List Request) (req : Request) :
    σ.after P cfg mode V (past ++ [req]) =
      ((σ.after P cfg mode V past).serve P cfg mode V req).2 :=
  run_snoc (fun σ req => (Server.serve P cfg mode V σ req).2) σ past req

/-- The limiter counts every accepted request but the preflights. -/
theorem requestsByIp_after (s : S) {reqs : List Request} (h : Accepted reqs) :
    ((initialServer s).after P cfg mode V reqs).requestsByIp =
      (limiterAfter cfg.requestLimit (withoutPreflights reqs)).requestsByIp := by
  induction reqs using List.reverseRecOn with
  | nil => rfl
  | append_singleton past req ih =>
    have hpast := ih fun r hr => h r (List.mem_append_left _ hr)
    rw [after_snoc, withoutPreflights, List.filter_append]
    by_cases hm : req.method = .options
    · rw [serve_preflight hm, hpast, List.filter_cons_of_neg (by simp [hm]), List.filter_nil,
        List.append_nil]
      rfl
    · obtain ⟨body, hp⟩ := h req (by simp) hm
      rw [(serve_parsed hm hp).1, hpast, List.filter_cons_of_pos (by simp [hm]), List.filter_nil,
        limiterAfter_snoc, requestsByIp_rateLimit, requestsByIp_rateLimit]
      rfl

/-- A request that the limiter rejects gets a 429. -/
theorem deliveries_of_rejected (hm : req.method ≠ .options) {body : Json}
    (hp : req.payload = .parsed body)
    (hreject : ¬ counter σ.requestsByIp req.arrival < cfg.requestLimit) :
    ∀ d ∈ (σ.serve P cfg mode V req).1, d.response.status = 429 := by
  simp only [Server.serve, createApp_parsed P cfg mode hm hp, if_neg hreject, List.mem_map]
  rintro d ⟨r, hr, rfl⟩
  obtain rfl := List.mem_singleton.mp hr
  rfl

/-- The deliveries other than 429 to an address in a minute are no more than the requests that the
limiter passes on. -/
theorem countP_deliveries_le (σ : Server S) {reqs : List Request} (h : Accepted reqs) (ip : String)
    (minuteBucket : ℕ) :
    ((σ.deliveries P cfg mode V reqs).countP fun d =>
      d.1.method ≠ .options ∧ d.1.ip = ip ∧ d.1.minuteBucket = minuteBucket ∧
        d.2.response.status ≠ 429) ≤
      (passedOn cfg.requestLimit ⟨σ.requestsByIp, []⟩ (withoutPreflights reqs)).countP fun r =>
        r.ip = ip ∧ r.minuteBucket = minuteBucket := by
  -- the first request gets one response at most, and none that counts unless it is passed on
  induction reqs generalizing σ with
  | nil => exact Nat.zero_le _
  | cons req reqs ih =>
    have htail := ih (σ.serve P cfg mode V req).2 h.of_cons
    rw [Server.deliveries, List.countP_append, List.countP_map]
    by_cases hm : req.method = .options
    · -- a preflight changes no counter, and its response does not count
      rw [serve_preflight hm] at htail
      have hnone : ((σ.serve P cfg mode V req).1.countP
          ((fun d : Request × Delivery => decide (d.1.method ≠ .options ∧ d.1.ip = ip ∧
            d.1.minuteBucket = minuteBucket ∧ d.2.response.status ≠ 429)) ∘ (req, ·))) = 0 := by
        rw [List.countP_eq_zero]
        simp [hm]
      rw [hnone, withoutPreflights, List.filter_cons_of_neg (by simp [hm]), Nat.zero_add]
      exact htail
    · obtain ⟨body, hp⟩ := h req (by simp) hm
      rw [(serve_parsed hm hp).1] at htail
      rw [withoutPreflights, List.filter_cons_of_pos (by simp [hm]), passedOn]
      rw [rateLimit_headers]
      by_cases hpass : counter σ.requestsByIp req.arrival < cfg.requestLimit
      · rw [if_pos ((passes_rateLimit _ _ _).mpr hpass), List.countP_cons]
        refine le_trans (Nat.add_le_add ?_ htail) (Nat.add_comm _ _).le
        split_ifs with hclass
        · exact List.countP_le_length.trans (length_serve_le σ req)
        · -- a request of another address or minute
          refine (List.countP_eq_zero.mpr fun d _ => ?_).le
          simp only [decide_eq_true_eq] at hclass
          simp only [Function.comp, decide_eq_true_eq]
          rintro ⟨-, hip, hbucket, -⟩
          exact hclass ⟨hip, hbucket⟩
      · -- the response of the limiter is a 429
        have hnone : ((σ.serve P cfg mode V req).1.countP
            ((fun d : Request × Delivery => decide (d.1.method ≠ .options ∧ d.1.ip = ip ∧
              d.1.minuteBucket = minuteBucket ∧ d.2.response.status ≠ 429)) ∘ (req, ·))) = 0 := by
          rw [List.countP_eq_zero]
          intro d hd
          simp [deliveries_of_rejected hm hp hpass d hd]
        rw [if_neg fun hpasses => hpass ((passes_rateLimit _ _ _).mp hpasses), hnone, Nat.zero_add]
        exact htail

/-- The deliveries to accepted requests carry the headers. -/
theorem guarded_deliveries (σ : Server S) {reqs : List Request} (h : Accepted reqs) :
    ∀ d ∈ σ.deliveries P cfg mode V reqs, d.1.method ≠ .options →
      d.2.headers = guardHeaders cfg d.1 := by
  induction reqs generalizing σ with
  | nil => exact fun d hd => absurd hd (by simp [Server.deliveries])
  | cons req reqs ih =>
    intro d hd hm
    rcases List.mem_append.mp hd with hd | hd
    · obtain ⟨delivery, hdelivery, rfl⟩ := List.mem_map.mp hd
      obtain ⟨body, hp⟩ := h req (by simp) hm
      exact (serve_parsed hm hp).2 delivery hdelivery
    · exact ih _ h.of_cons d hd hm

end Server

/-- **Nothing slips past the middlewares if and only if every body is accepted**, in every run in
which no request comes more than two minutes before an earlier one. -/
theorem nothing_slips_past_iff (P : Platform) (cfg : Config) (mode : String) {S : Type}
    (V : Store S) (s : S) {reqs : List Request}
    (hclock : reqs.Pairwise fun r r' => r.minuteBucket ≤ r'.minuteBucket + 2) :
    NothingSlipsPast P cfg mode V s reqs ↔
      ∀ req ∈ reqs, req.method ≠ .options → ∃ body, req.payload = .parsed body := by
  constructor
  · intro h req hreq hm
    obtain ⟨past, later, rfl⟩ := List.append_of_mem hreq
    cases hp : req.payload with
    | parsed body => exact ⟨body, rfl⟩
    | refused status =>
      -- a refused request leaves its counter alone
      have hcounted := h.counted past req ⟨later, by simp⟩ hm
      rw [after_snoc, serve_refused hp] at hcounted
      omega
  · intro h
    refine ⟨fun past req hprefix hm => ?_, fun ip minuteBucket => ?_, fun d hd hm _ header hh => ?_⟩
    -- counted: the sweep of a request does not reach its own minute
    · have hreq : req ∈ reqs := hprefix.subset (by simp)
      obtain ⟨body, hp⟩ := h req hreq hm
      rw [after_snoc, (serve_parsed hm hp).1,
        counter_rateLimit _ _ _ (Nat.le_add_right req.minuteBucket 2), if_pos rfl]
    -- limited: what the clients receive is bounded by what the limiter passes on
    · refine (countP_deliveries_le (initialServer s) h ip minuteBucket).trans ?_
      have hcounting : (withoutPreflights reqs).Pairwise
          fun r r' => r.minuteBucket ≤ r'.minuteBucket + 2 := hclock.sublist List.filter_sublist
      have hpassed : passedOn cfg.requestLimit ⟨.empty, []⟩ (withoutPreflights reqs) =
          admittedAfter Request.arrival cfg.requestLimit [] (withoutPreflights reqs) :=
        passedOn_eq [] hcounting
      have hbound : arrivals Request.arrival (passedOn cfg.requestLimit ⟨.empty, []⟩
          (withoutPreflights reqs)) (ip, minuteBucket) ≤ cfg.requestLimit := by
        rw [hpassed]
        exact arrivals_admitted_le (withoutPreflights reqs) (ip, minuteBucket)
      rw [arrivals] at hbound
      simp only [Request.arrival, Prod.mk.injEq] at hbound
      exact hbound
    · rw [guarded_deliveries (initialServer s) h d hd hm]
      exact hh

/-- Nothing slips past while two health checks are served. -/
theorem nothing_slips_past_healthChecks :
    NothingSlipsPast plainPlatform plainConfig "memory" (memoryStore plainPlatform) ⟨[], [], []⟩
      [healthCheck "::1" 0, healthCheck "::1" 70000] := by
  have hclock : [healthCheck "::1" 0, healthCheck "::1" 70000].Pairwise
      fun r r' => r.minuteBucket ≤ r'.minuteBucket + 2 := by
    simp [healthCheck, Request.minuteBucket]
  apply (nothing_slips_past_iff _ _ _ _ _ hclock).mpr
  intro req hreq _
  rcases List.mem_pair.mp hreq with rfl | rfl
  all_goals exact ⟨_, rfl⟩

/-- A login whose body is not JSON. -/
def malformedLogin : Request :=
  { plainLogin "ada@example.com" "secret1" with payload := .refused 400 }

/-- With one request a minute, two logins with malformed bodies are both answered by the error
handler. -/
theorem malformed_logins_slip_past :
    ¬ NothingSlipsPast plainPlatform { plainConfig with requestLimit := 1 } "memory"
      (memoryStore plainPlatform) ⟨[], [], []⟩ [malformedLogin, malformedLogin] := by
  intro h
  have htwo := h.limited "127.0.0.1" 0
  exact absurd htwo (by decide)

end LanguageGuru
