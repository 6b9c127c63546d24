import LanguageGuru.Backend.App
import LanguageGuru.Backend.PlainPlatform
import LanguageGuru.Process.FixedWindow
import LanguageGuru.Process.Transition
import Mathlib.Data.List.Dedup

/-!
# The rate limiter

The limiter counts the requests of an address in a minute under a string key, and from time to
time it deletes the keys whose minute it reads back from the string as old. It admits exactly what
an unbounded table of counters would admit, and it keeps few entries.

## Main definitions

* `Request.arrival`: the address and the minute of a request
* `limiterAfter`, `passedOn`: the limiter after a list of requests, and the requests it passed on
* `Counting`: what the counters hold after the requests `past`

## Main results

* `bucketKey_inj`, `isOld_bucketKey`: the keys determine address and minute, and are read back
* `counting_rateLimit`: a request keeps the counters
* `rateLimit_exact`: which requests are passed on, and how many in a minute
* `rateLimit_memory_bounded`: how many entries there are
-/

namespace LanguageGuru

open Process Process.FixedWindow

/-! ## The keys -/

/-- The minute in which the limiter sees a request. -/
def Request.minuteBucket (req : Request) : ℕ := req.seeds.receivedAt / 60000

/-- The address and the minute of a request. -/
def Request.arrival (req : Request) : String × ℕ := (req.ip, req.minuteBucket)

/-- The loop of `isNat` over digits runs to the end. -/
theorem forIn_digits (cs : List Char) (hcs : ∀ c ∈ cs, c.isDigit = true) (b : Bool) :
    (forIn cs ((none, b) : Option Bool × Bool) fun c r =>
      if c = '_' then
        if (!r.2) = true then (pure (ForInStep.done (some false, r.2)) : Id _)
        else pure (ForInStep.yield (none, false))
      else if c.isDigit = true then pure (ForInStep.yield (none, true))
      else pure (ForInStep.done (some false, r.2))) = pure (none, b || cs ≠ []) := by
  -- no digit leaves the loop early
  induction cs generalizing b with
  | nil => simp
  | cons c cs ih =>
    have hc : c.isDigit = true := hcs c (by simp)
    have hne : c ≠ '_' := by
      rintro rfl
      exact absurd hc (by decide)
    simp only [List.forIn_cons, if_neg hne, if_pos hc, pure_bind]
    rw [ih (fun d hd => hcs d (List.mem_cons_of_mem _ hd)) true]
    simp

/-- A number is read back from its digits. -/
theorem toNat?_toString (n : ℕ) : (toString n).toNat? = some n := by
  have hdigits : ∀ c ∈ Nat.toDigits 10 n, c.isDigit = true := fun c hc =>
    Nat.isDigit_of_mem_toDigits (by omega) (by omega) hc
  rw [Nat.toString_eq_repr]
  show n.repr.toSlice.toNat? = _
  have hnat : n.repr.toSlice.isNat = true := by
    unfold String.Slice.isNat
    simp only [String.Slice.forIn_eq_forIn_toList]
    rw [String.copy_toSlice, Nat.toList_repr, forIn_digits _ hdigits]
    simp [Nat.toDigits_ne_nil]
  rw [String.Slice.toNat?, if_pos hnat, String.Slice.foldl_eq_foldl_toList, String.copy_toSlice,
    Nat.toList_repr]
  have hfold : ∀ (cs : List Char) (m : ℕ), (∀ c ∈ cs, c.isDigit = true) →
      cs.foldl (fun n c => if c = '_' then n else n * 10 + (c.toNat - '0'.toNat)) m =
        Nat.ofDigitChars 10 cs m := by
    intro cs
    induction cs with
    | nil => intros; rfl
    | cons c cs ih =>
      intro m hcs
      have hne : c ≠ '_' := by
        rintro rfl
        exact absurd (hcs '_' (by simp)) (by decide)
      rw [List.foldl_cons, if_neg hne, ih _ fun d hd => hcs d (List.mem_cons_of_mem _ hd),
        Nat.ofDigitChars_cons, Nat.mul_comm]
  rw [hfold _ _ hdigits, Nat.ofDigitChars_ten_toDigits]

theorem colon_not_mem_toString (n : ℕ) : ':' ∉ (toString n).toList := by
  intro h
  rw [Nat.toString_eq_repr, Nat.toList_repr] at h
  exact absurd (Nat.isDigit_of_mem_toDigits (by omega) (by omega) h) (by decide)

/-- What stands behind the last colon of a key is its minute, whatever the address holds. -/
theorem lastPart_bucketKey (ip : String) (b : ℕ) : lastPart (bucketKey ip b) = toString b := by
  unfold bucketKey
  have hcolon : ∀ c ∈ (toString b).toList.reverse, decide (c ≠ ':') = true := by
    intro c hc
    refine decide_eq_true ?_
    rintro rfl
    exact colon_not_mem_toString b (List.mem_reverse.mp hc)
  generalize toString b = digits at hcolon ⊢
  simp only [lastPart, String.toList_append, List.reverse_append]
  rw [List.takeWhile_append_of_pos hcolon]
  simp

/-- **The key determines the address and the minute.** -/
theorem bucketKey_inj {ip ip' : String} {b b' : ℕ} :
    bucketKey ip b = bucketKey ip' b' ↔ ip = ip' ∧ b = b' := by
  refine ⟨fun h => ?_, fun ⟨hip, hb⟩ => by rw [hip, hb]⟩
  have hdigits : toString b = toString b' := by
    rw [← lastPart_bucketKey ip b, h, lastPart_bucketKey]
  have hb : b = b' := by
    have hread := congrArg String.toNat? hdigits
    rw [toNat?_toString, toNat?_toString] at hread
    exact Option.some.inj hread
  refine ⟨?_, hb⟩
  -- with the same end, the same beginning
  rw [bucketKey, bucketKey, hb, String.append_assoc, String.append_assoc] at h
  exact (String.append_left_inj _).mp h

/-- The sweep deletes a key if and only if its minute is older. -/
theorem isOld_bucketKey (oldBucket : ℤ) (ip : String) (b : ℕ) :
    isOld oldBucket (bucketKey ip b) = true ↔ (b : ℤ) < oldBucket := by
  rw [isOld, lastPart_bucketKey, toNat?_toString]
  exact decide_eq_true_iff

/-! ## One request -/

variable (requestLimit : ℕ)

/-- The counter of an address in a minute. -/
def counter (m : OrderedMap String ℕ) (k : String × ℕ) : ℕ := (m.get (bucketKey k.1 k.2)).getD 0

/-- Whether a middleware calls `next()`. -/
def Verdict.passes : Verdict → Bool
  | .next => true
  | _ => false

/-- The map in which a request is counted. -/
def counted (req : Request) (m : OrderedMap String ℕ) : OrderedMap String ℕ :=
  m.set (bucketKey req.ip req.minuteBucket) (counter m req.arrival + 1)

/-- The limiter in terms of the counter of the request. -/
theorem rateLimit_eq (req : Request) (x : Exchange) :
    rateLimit requestLimit req x =
      if requestLimit < counter x.requestsByIp req.arrival + 1 then
        ({ x with requestsByIp := counted req x.requestsByIp },
          .respond ⟨429, .error "Too many requests, try again later."⟩)
      else if 5000 < (counted req x.requestsByIp).size then
        ({ x with
          requestsByIp := sweep (req.minuteBucket - 2) (counted req x.requestsByIp) }, .next)
      else ({ x with requestsByIp := counted req x.requestsByIp }, .next) := rfl

/-- The limiter passes a request on when its counter is below the limit. -/
theorem passes_rateLimit (req : Request) (x : Exchange) :
    (rateLimit requestLimit req x).2.passes = true ↔
      counter x.requestsByIp req.arrival < requestLimit := by
  rw [rateLimit_eq]
  split_ifs with hreject hlarge
  · simp only [Verdict.passes, Bool.false_eq_true, false_iff]
    omega
  · simp only [Verdict.passes, true_iff]
    omega
  · simp only [Verdict.passes, true_iff]
    omega

/-- A request is counted, and a request that is passed on may start a sweep. -/
theorem requestsByIp_rateLimit (req : Request) (x : Exchange) :
    (rateLimit requestLimit req x).1.requestsByIp =
      if counter x.requestsByIp req.arrival < requestLimit ∧
          5000 < (counted req x.requestsByIp).size then
        sweep (req.minuteBucket - 2) (counted req x.requestsByIp)
      else counted req x.requestsByIp := by
  rw [rateLimit_eq]
  split_ifs with hreject hboth hlarge
  all_goals first | rfl | omega

theorem counter_counted (req : Request) (m : OrderedMap String ℕ) (k : String × ℕ) :
    counter (counted req m) k = counter m k + if req.arrival = k then 1 else 0 := by
  rw [counter, counted, OrderedMap.get_set]
  by_cases hk : req.arrival = k
  · subst hk
    simp [Request.arrival]
  · -- another class has another key
    have hne : bucketKey k.1 k.2 ≠ bucketKey req.ip req.minuteBucket := fun h =>
      hk (Prod.ext (bucketKey_inj.mp h).1.symm (bucketKey_inj.mp h).2.symm)
    rw [if_neg hne, if_neg hk]
    rfl

/-- The sweep keeps the counters of the minutes that are not old. -/
theorem counter_sweep {oldBucket : ℤ} {k : String × ℕ} (hk : oldBucket ≤ k.2)
    (m : OrderedMap String ℕ) : counter (sweep oldBucket m) k = counter m k := by
  have hkept : isOld oldBucket (bucketKey k.1 k.2) = false := by
    rw [← Bool.not_eq_true, isOld_bucketKey]
    omega
  rw [counter, sweep, OrderedMap.get_sweep _ _ hkept]
  rfl

/-- A request counts in its own class, and keeps every counter of the last three minutes. -/
theorem counter_rateLimit (req : Request) (x : Exchange) {k : String × ℕ}
    (hk : req.minuteBucket ≤ k.2 + 2) :
    counter (rateLimit requestLimit req x).1.requestsByIp k =
      counter x.requestsByIp k + if req.arrival = k then 1 else 0 := by
  rw [requestsByIp_rateLimit, ← counter_counted]
  split_ifs
  · exact counter_sweep (by omega) _
  · rfl

/-! ## Runs -/

/-- The exchange that the limiter passes on, with its counters. -/
def limiterAfter (reqs : List Request) : Exchange :=
  run (fun x req => (rateLimit requestLimit req x).1) ⟨.empty, []⟩ reqs

/-- The requests that the limiter passes on. -/
def passedOn : Exchange → List Request → List Request
  | _, [] => []
  | x, req :: reqs =>
    if (rateLimit requestLimit req x).2.passes then
      req :: passedOn (rateLimit requestLimit req x).1 reqs
    else passedOn (rateLimit requestLimit req x).1 reqs

/-- The clock of the limiter does not run backwards. -/
def Nondecreasing (reqs : List Request) : Prop :=
  reqs.Pairwise fun r r' => r.seeds.receivedAt ≤ r'.seeds.receivedAt

/-- No request comes more than two minutes before an earlier one. -/
def Current (past : List Request) (req : Request) : Prop :=
  ∀ r ∈ past, r.minuteBucket ≤ req.minuteBucket + 2

theorem Nondecreasing.minuteBucket_le {past : List Request} {req : Request}
    (h : Nondecreasing (past ++ [req])) : ∀ r ∈ past, r.minuteBucket ≤ req.minuteBucket := by
  intro r hr
  exact Nat.div_le_div_right ((List.pairwise_append.mp h).2.2 r hr req (by simp))

/-- The minute of the last request is the latest one. -/
theorem Nondecreasing.le_last {past : List Request} {req : Request}
    (h : Nondecreasing (past ++ [req])) :
    ∀ r ∈ past ++ [req], r.minuteBucket ≤ req.minuteBucket := by
  intro r hr
  rcases List.mem_append.mp hr with hr | hr
  · exact h.minuteBucket_le r hr
  · rw [List.mem_singleton.mp hr]

/-- What the map holds after the requests `past`: keys of these requests, and the exact counters
of every minute that the sweeps have not passed. -/
structure Counting (past : List Request) (m : OrderedMap String ℕ) : Prop where
  seen : ∀ key ∈ m.keys, ∃ r ∈ past, key = bucketKey r.ip r.minuteBucket
  counts : Counts Request.arrival (fun k => ∀ r ∈ past, r.minuteBucket ≤ k.2 + 2) past (counter m)

theorem counting_empty : Counting [] .empty where
  seen _ h := absurd h (by simp [OrderedMap.keys, OrderedMap.empty])
  counts _ _ := rfl

variable {requestLimit}

theorem mem_keys_counted {req : Request} {m : OrderedMap String ℕ} {key : String} :
    key ∈ (counted req m).keys ↔ key ∈ m.keys ∨ key = bucketKey req.ip req.minuteBucket := by
  rw [counted, OrderedMap.keys_set]
  split_ifs with hmem
  · refine ⟨.inl, fun h => h.elim id ?_⟩
    rintro rfl
    exact hmem
  · simp

theorem keys_sweep (oldBucket : ℤ) (m : OrderedMap String ℕ) :
    (sweep oldBucket m).keys = m.keys.filter fun k => !isOld oldBucket k :=
  OrderedMap.keys_sweep _ m

/-- A request adds no key but its own. -/
theorem mem_keys_rateLimit {req : Request} {x : Exchange} {key : String}
    (h : key ∈ (rateLimit requestLimit req x).1.requestsByIp.keys) :
    key ∈ x.requestsByIp.keys ∨ key = bucketKey req.ip req.minuteBucket := by
  rw [requestsByIp_rateLimit] at h
  split_ifs at h
  · rw [keys_sweep] at h
    exact mem_keys_counted.mp (List.mem_of_mem_filter h)
  · exact mem_keys_counted.mp h

/-- **A request keeps the counters.** -/
theorem counting_rateLimit {past : List Request} {req : Request} {x : Exchange}
    (h : Counting past x.requestsByIp) :
    Counting (past ++ [req]) (rateLimit requestLimit req x).1.requestsByIp where
  seen key hkey := by
    rcases mem_keys_rateLimit hkey with hold | rfl
    · obtain ⟨r, hr, rfl⟩ := h.seen key hold
      exact ⟨r, List.mem_append_left _ hr, rfl⟩
    · exact ⟨req, by simp, rfl⟩
  counts := by
    refine h.counts.snoc (fun k hk r hr => hk r (List.mem_append_left _ hr)) fun k hk => ?_
    exact counter_rateLimit requestLimit req x (hk req (by simp))

theorem limiterAfter_snoc (past : List Request) (req : Request) :
    limiterAfter requestLimit (past ++ [req]) =
      (rateLimit requestLimit req (limiterAfter requestLimit past)).1 :=
  run_snoc (fun x req => (rateLimit requestLimit req x).1) _ past req

/-- The counters after a list of requests. -/
theorem counting_limiterAfter (reqs : List Request) :
    Counting reqs (limiterAfter requestLimit reqs).requestsByIp := by
  induction reqs using List.reverseRecOn with
  | nil => exact counting_empty
  | append_singleton past req ih =>
    rw [limiterAfter_snoc]
    exact counting_rateLimit ih

/-! ## Which requests are passed on -/

/-- A request that is not stale is passed on when fewer than the limit came before it. -/
theorem passes_limiterAfter {past : List Request} {req : Request} (hcurrent : Current past req) :
    (rateLimit requestLimit req (limiterAfter requestLimit past)).2.passes = true ↔
      arrivals Request.arrival past req.arrival < requestLimit := by
  rw [passes_rateLimit, (counting_limiterAfter past).counts req.arrival hcurrent]

/-- The limiter passes on what fixed-window admission admits, when no request is stale. -/
theorem passedOn_eq (past : List Request) {reqs : List Request}
    (hclock : (past ++ reqs).Pairwise fun r r' => r.minuteBucket ≤ r'.minuteBucket + 2) :
    passedOn requestLimit (limiterAfter requestLimit past) reqs =
      admittedAfter Request.arrival requestLimit past reqs := by
  -- both sides decide on the next request by the same number, and go on after it
  induction reqs generalizing past with
  | nil => rfl
  | cons req reqs ih =>
    have hcurrent : Current past req := fun r hr =>
      (List.pairwise_append.mp hclock).2.2 r hr req (by simp)
    have htail := ih (past ++ [req]) (by simpa using hclock)
    rw [passedOn, admittedAfter, ← limiterAfter_snoc, htail]
    simp only [passes_limiterAfter hcurrent]

theorem Nondecreasing.current {reqs : List Request} (h : Nondecreasing reqs) :
    reqs.Pairwise fun r r' => r.minuteBucket ≤ r'.minuteBucket + 2 := by
  refine h.imp fun hle => ?_
  exact (Nat.div_le_div_right hle).trans (Nat.le_add_right _ 2)

/-- **The limiter admits exactly the right requests.** A request is passed on if and only if fewer
than `requestLimit` earlier requests came from its address in its minute; so at most `requestLimit`
requests of an address pass in a minute of the clock, and at most twice as many in any interval of
60 seconds. -/
theorem rateLimit_exact (requestLimit : ℕ) {reqs : List Request} (hclock : Nondecreasing reqs) :
    (∀ past req, past ++ [req] <+: reqs →
      ((rateLimit requestLimit req (limiterAfter requestLimit past)).2 = .next ↔
        (past.countP fun r => r.ip = req.ip ∧ r.minuteBucket = req.minuteBucket) <
          requestLimit)) ∧
    (∀ ip minuteBucket, ((passedOn requestLimit ⟨.empty, []⟩ reqs).countP fun r =>
      r.ip = ip ∧ r.minuteBucket = minuteBucket) ≤ requestLimit) ∧
    ∀ ip t, ((passedOn requestLimit ⟨.empty, []⟩ reqs).countP fun r =>
      r.ip = ip ∧ t ≤ r.seeds.receivedAt ∧ r.seeds.receivedAt ≤ t + 60000) ≤ 2 * requestLimit := by
  have hpassed : passedOn requestLimit ⟨.empty, []⟩ reqs =
      admittedAfter Request.arrival requestLimit [] reqs := passedOn_eq [] hclock.current
  refine ⟨fun past req hp => ?_, fun ip minuteBucket => ?_, fun ip t => ?_⟩
  -- one request: its counter is exact, because no sweep has passed its minute
  · obtain ⟨later, rfl⟩ := hp
    have hpast : Nondecreasing (past ++ [req]) := (List.pairwise_append.mp hclock).1
    have hcurrent : Current past req := fun r hr =>
      (hpast.minuteBucket_le r hr).trans (Nat.le_add_right _ 2)
    have hnext : ∀ v : Verdict, v = .next ↔ v.passes = true := fun v => by
      cases v <;> simp [Verdict.passes]
    rw [hnext, passes_limiterAfter hcurrent, arrivals]
    simp only [Request.arrival, Prod.mk.injEq]
  -- one minute of the clock: a class of the fixed windows
  · have h : arrivals Request.arrival (passedOn requestLimit ⟨.empty, []⟩ reqs)
        (ip, minuteBucket) ≤ requestLimit := by
      rw [hpassed]
      exact arrivals_admitted_le reqs (ip, minuteBucket)
    rw [arrivals] at h
    simpa only [Request.arrival, Prod.mk.injEq] using h
  -- any 60 seconds: two minutes of the clock at most
  · rw [hpassed]
    have hwidth : 0 < 60000 := by decide
    exact countP_admitted_window_le hwidth reqs ip t

/-- A health check from an address, at a time. -/
def healthCheck (ip : String) (receivedAt : Time) : Request :=
  { plainRequest .get ["api", "health"] none (.obj []) "" with
    ip, seeds := ⟨receivedAt, 0, 0, 0, "", "", 0⟩ }

/-- With one request a minute, the second request of an address is rejected; the first request of
another one, whose text continues that of the first, is passed on. -/
theorem second_healthCheck_rejected :
    (rateLimit 1 (healthCheck "::1" 59000)
      (limiterAfter 1 [healthCheck "::1" 0, healthCheck "::1:0" 30000])).2 ≠ .next ∧
    (rateLimit 1 (healthCheck "::1:0" 30000) (limiterAfter 1 [healthCheck "::1" 0])).2 = .next := by
  have hclock : Nondecreasing
      [healthCheck "::1" 0, healthCheck "::1:0" 30000, healthCheck "::1" 59000] := by
    simp [Nondecreasing, healthCheck]
  obtain ⟨hexact, -⟩ := rateLimit_exact 1 hclock
  constructor
  · rw [Ne, hexact [healthCheck "::1" 0, healthCheck "::1:0" 30000] _ List.prefix_rfl]
    decide
  · apply (hexact [healthCheck "::1" 0] _ ⟨[healthCheck "::1" 59000], rfl⟩).mpr
    decide

/-! ## How many entries there are -/

/-- The minute of the latest of the requests. -/
def Latest (past : List Request) (b : ℕ) : Prop :=
  (∃ r ∈ past, r.minuteBucket = b) ∧ ∀ r ∈ past, r.minuteBucket ≤ b

/-- The keys of the minutes `b - 2`, `b - 1` and `b`. -/
def RecentKey (b : ℕ) (key : String) : Prop :=
  ∃ ip b', key = bucketKey ip b' ∧ b ≤ b' + 2 ∧ b' ≤ b

/-- The map is small, or all its entries are of the last three minutes. -/
def Trimmed (b : ℕ) (m : OrderedMap String ℕ) : Prop :=
  m.size ≤ 5000 ∨ ∀ key ∈ m.keys, RecentKey b key

/-- A request that is rejected finds its key in the map. -/
theorem mem_keys_of_rejected {req : Request} {m : OrderedMap String ℕ} (hlimit : 0 < requestLimit)
    (hreject : ¬ counter m req.arrival < requestLimit) :
    bucketKey req.ip req.minuteBucket ∈ m.keys := by
  rw [OrderedMap.mem_keys_iff]
  cases hget : m.get (bucketKey req.ip req.minuteBucket) with
  | some n => exact ⟨n, rfl⟩
  | none =>
    have hzero : counter m req.arrival = 0 := by simp [counter, Request.arrival, hget]
    omega

/-- A request leaves the map trimmed: one that is passed on by the sweep, and one that is rejected
because its own key shows that the minute began with an earlier request. -/
theorem trimmed_rateLimit {past : List Request} {req : Request} {x : Exchange}
    (hlimit : 0 < requestLimit) (hclock : Nondecreasing (past ++ [req]))
    (hcounting : Counting past x.requestsByIp)
    (htrimmed : ∀ b, Latest past b → Trimmed b x.requestsByIp) :
    Trimmed req.minuteBucket (rateLimit requestLimit req x).1.requestsByIp := by
  have hnew : Counting (past ++ [req]) (rateLimit requestLimit req x).1.requestsByIp :=
    counting_rateLimit hcounting
  by_cases hpass : counter x.requestsByIp req.arrival < requestLimit
  · by_cases hlarge : 5000 < (counted req x.requestsByIp).size
    · refine .inr fun key hkey => ?_
      obtain ⟨r, hr, rfl⟩ := hnew.seen key hkey
      rw [requestsByIp_rateLimit, if_pos ⟨hpass, hlarge⟩, keys_sweep] at hkey
      -- a key that the sweep left is not older than two minutes
      have hkept := List.of_mem_filter hkey
      rw [Bool.not_eq_true', ← Bool.not_eq_true, isOld_bucketKey] at hkept
      exact ⟨r.ip, r.minuteBucket, rfl, by omega, hclock.le_last r hr⟩
    · refine .inl ?_
      rw [requestsByIp_rateLimit, if_neg fun h => hlarge h.2]
      omega
  · -- no sweep, but no new key either: the minute of the request is that of an earlier one, after
    -- which the map was trimmed
    have hmem := mem_keys_of_rejected hlimit hpass
    have hsame : (rateLimit requestLimit req x).1.requestsByIp.keys = x.requestsByIp.keys := by
      rw [requestsByIp_rateLimit, if_neg fun h => hpass h.1, counted, OrderedMap.keys_set,
        if_pos hmem]
    obtain ⟨r, hr, hkey⟩ := hcounting.seen _ hmem
    have hlatest : Latest past req.minuteBucket :=
      ⟨⟨r, hr, (bucketKey_inj.mp hkey).2.symm⟩, hclock.minuteBucket_le⟩
    rw [Trimmed, ← OrderedMap.length_keys, hsame, OrderedMap.length_keys]
    exact htrimmed _ hlatest

/-- After every request the map is trimmed for the minute of the request. -/
theorem trimmed_limiterAfter (hlimit : 0 < requestLimit) {reqs : List Request}
    (hclock : Nondecreasing reqs) {b : ℕ} (hb : Latest reqs b) :
    Trimmed b (limiterAfter requestLimit reqs).requestsByIp := by
  induction reqs using List.reverseRecOn generalizing b with
  | nil => exact absurd hb.1 (by simp)
  | append_singleton past req ih =>
    have hbucket : b = req.minuteBucket := by
      obtain ⟨⟨r, hr, rfl⟩, hmax⟩ := hb
      exact le_antisymm (hclock.le_last r hr) (hmax req (by simp))
    subst hbucket
    rw [limiterAfter_snoc]
    exact trimmed_rateLimit hlimit hclock (counting_limiterAfter past)
      fun b hb => ih (List.pairwise_append.mp hclock).1 hb

/-- **The memory of the limiter is bounded.** After every request the map has at most 5000 entries,
or all its entries are of the last three minutes; its size never exceeds 5000 or the number of
distinct addresses and minutes seen in these three minutes. -/
theorem rateLimit_memory_bounded {requestLimit : ℕ} (hlimit : 1 ≤ requestLimit)
    {past : List Request} {req : Request} (hclock : Nondecreasing (past ++ [req])) :
    let m := (limiterAfter requestLimit (past ++ [req])).requestsByIp
    (m.size ≤ 5000 ∨ ∀ key ∈ m.keys, ∃ ip b, key = bucketKey ip b ∧
      (b + 2 = req.minuteBucket ∨ b + 1 = req.minuteBucket ∨ b = req.minuteBucket)) ∧
    m.size ≤ max 5000 (((past ++ [req]).map Request.arrival).filter fun k =>
      req.minuteBucket ≤ k.2 + 2).dedup.length := by
  intro m
  have hlatest : Latest (past ++ [req]) req.minuteBucket :=
    ⟨⟨req, by simp, rfl⟩, hclock.le_last⟩
  have htrimmed := trimmed_limiterAfter hlimit hclock hlatest
  refine ⟨htrimmed.imp id fun h key hkey => ?_, ?_⟩
  · obtain ⟨ip, b, rfl, hlow, hhigh⟩ := h key hkey
    exact ⟨ip, b, rfl, by omega⟩
  · rcases htrimmed with hsmall | hrecent
    · exact hsmall.trans (le_max_left _ _)
    · refine le_trans ?_ (le_max_right _ _)
      -- the keys are distinct, and each is the key of a recent request
      generalize hkinds : ((past ++ [req]).map Request.arrival).filter (fun k =>
        req.minuteBucket ≤ k.2 + 2) = kinds
      rw [← OrderedMap.length_keys, ← List.length_map fun k : String × ℕ => bucketKey k.1 k.2]
      refine (List.subperm_of_subset m.nodup fun key hkey => ?_).length_le
      obtain ⟨r, hr, rfl⟩ := (counting_limiterAfter (past ++ [req])).seen key hkey
      obtain ⟨ip, b, heq, hlow, -⟩ := hrecent _ hkey
      have hrecentBucket : req.minuteBucket ≤ r.minuteBucket + 2 := (bucketKey_inj.mp heq).2 ▸ hlow
      refine List.mem_map.mpr ⟨r.arrival, ?_, rfl⟩
      rw [List.mem_dedup, ← hkinds]
      exact List.mem_filter.mpr ⟨List.mem_map_of_mem hr, decide_eq_true hrecentBucket⟩

/-- The limiter after one rejected request. -/
theorem rejected_healthCheck_bounded :
    (limiterAfter 1 [healthCheck "::1" 0, healthCheck "::1" 1]).requestsByIp.size ≤ 5000 := by
  have hclock : Nondecreasing ([healthCheck "::1" 0] ++ [healthCheck "::1" 1]) := by
    simp [Nondecreasing, healthCheck]
  refine (rateLimit_memory_bounded (le_refl 1) hclock).2.trans (max_le (le_refl _) ?_)
  decide

end LanguageGuru
