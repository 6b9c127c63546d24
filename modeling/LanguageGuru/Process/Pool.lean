import LanguageGuru.Process.Program
import LanguageGuru.Process.Transition

/-!
# Pools of interleaved programs

A pool runs the programs that serve a growing collection of requests over one shared state. A
request arrives at any moment; from then on any of its segments may be the next to run. A pool
keeps what every task did and the order in which calls were performed. A contract bounds what the
segments of a program do from the states the other tasks may leave; a pool of programs that keep
the contract keeps its invariant in every interleaving.

## Main definitions

* `Thread`, `Task`, `Pool`: a suspended program, the program of a request, and a pool of them
* `Thread.resume`: the next segment of a thread
* `Pool.step serve`: the arrival of a request, and the next segment of a task
* `Contract`, `Program.Guarded`: what the segments of a program may do

## Main results

* `Pool.state_eq_replay`: the shared state is the initial state after the logged calls in order
* `Pool.logged_run`: the log is what the tasks did
* `Program.Within.guarded`: programs that keep to harmless calls keep a contract
* `Pool.sound_run`: programs that keep a contract keep it in every interleaving
-/

namespace Process

variable {Call : Type} {Answer : Call → Type} {E O A S ι : Type}

/-- What a task did: it made a call, or sent an output. -/
inductive Event (Call O : Type) where
  | called (c : Call)
  | sent (o : O)

namespace Event

/-- The calls of a trace, in order. -/
def calls (tr : List (Event Call O)) : List Call :=
  tr.filterMap fun
    | .called c => some c
    | .sent _ => none

/-- The outputs of a trace, in order. -/
def outputs (tr : List (Event Call O)) : List O :=
  tr.filterMap fun
    | .called _ => none
    | .sent o => some o

@[simp] theorem calls_nil : calls ([] : List (Event Call O)) = [] := rfl

@[simp] theorem outputs_nil : outputs ([] : List (Event Call O)) = [] := rfl

@[simp] theorem calls_called (c : Call) (tr : List (Event Call O)) :
    calls (.called c :: tr) = c :: calls tr := rfl

@[simp] theorem calls_sent (o : O) (tr : List (Event Call O)) :
    calls (.sent o :: tr) = calls tr := rfl

@[simp] theorem outputs_called (c : Call) (tr : List (Event Call O)) :
    outputs (.called c :: tr) = outputs tr := rfl

@[simp] theorem outputs_sent (o : O) (tr : List (Event Call O)) :
    outputs (.sent o :: tr) = o :: outputs tr := rfl

@[simp] theorem calls_append (tr tr' : List (Event Call O)) :
    calls (tr ++ tr') = calls tr ++ calls tr' := List.filterMap_append

@[simp] theorem outputs_append (tr tr' : List (Event Call O)) :
    outputs (tr ++ tr') = outputs tr ++ outputs tr' := List.filterMap_append

end Event

/-- A program that has not started, one that awaits a call, or one that ended. -/
inductive Thread (V : Service Answer E S) (O A : Type) where
  | ready (p : Program Answer E O A)
  | waiting (c : Call) (h : V.Handle c) (next : Except E (Answer c) → Program Answer E O A)
  | finished (result : Except E A)

/-- What one segment did, the thread it leaves, and the state it leaves. -/
structure Segment (V : Service Answer E S) (O A : Type) where
  events : List (Event Call O)
  thread : Thread V O A
  state : S

/-- Run a program up to its next call, which is performed. -/
def Program.advance (V : Service Answer E S) : Program Answer E O A → S → Segment V O A
  | .done a, s => ⟨[], .finished (.ok a), s⟩
  | .fail e, s => ⟨[], .finished (.error e), s⟩
  | .emit o p, s => { advance V p s with events := .sent o :: (advance V p s).events }
  | .call c k, s => ⟨[.called c], .waiting c (V.perform c s).1 k, (V.perform c s).2⟩

section Advance

variable (V : Service Answer E S) (s : S)

@[simp] theorem Program.advance_done (a : A) :
    (Program.done a : Program Answer E O A).advance V s = ⟨[], .finished (.ok a), s⟩ := rfl

@[simp] theorem Program.advance_fail (e : E) :
    (Program.fail e : Program Answer E O A).advance V s = ⟨[], .finished (.error e), s⟩ := rfl

@[simp] theorem Program.advance_call (c : Call)
    (k : Except E (Answer c) → Program Answer E O A) :
    (Program.call c k).advance V s =
      ⟨[.called c], .waiting c (V.perform c s).1 k, (V.perform c s).2⟩ := rfl

@[simp] theorem Program.advance_send (o : O) :
    (Program.send o : Program Answer E O Unit).advance V s =
      ⟨[.sent o], .finished (.ok ()), s⟩ := rfl

end Advance

/-- The next segment of a thread. -/
def Thread.resume {V : Service Answer E S} : Thread V O A → S → Segment V O A
  | .ready p, s => p.advance V s
  | .waiting c h k, s => (k (V.view c h s)).advance V s
  | .finished r, s => ⟨[], .finished r, s⟩

/-- A request, what its program did so far, and the rest of the program. -/
structure Task (ι : Type) (V : Service Answer E S) (O A : Type) where
  request : ι
  trace : List (Event Call O)
  thread : Thread V O A

/-- The outputs of a task, in order. -/
def Task.outputs {V : Service Answer E S} (t : Task ι V O A) : List O := Event.outputs t.trace

/-- The shared state, the tasks in the order of their arrival, and the calls performed so far,
each with the index of its task. -/
structure Pool (ι : Type) (V : Service Answer E S) (O A : Type) where
  state : S
  tasks : List (Task ι V O A)
  log : List (ℕ × Call)

/-- A request arrives, or a task runs its next segment. -/
inductive Action (ι : Type) where
  | arrive (r : ι)
  | resume (i : ℕ)

namespace Pool

variable {V : Service Answer E S} (serve : ι → Program Answer E O A)

/-- The pool without tasks. -/
def initial (s : S) : Pool ι V O A := ⟨s, [], []⟩

/-- The pool after the next segment of the task `t` at index `i`. -/
def resumed (pool : Pool ι V O A) (i : ℕ) (t : Task ι V O A) : Pool ι V O A :=
  let g := t.thread.resume pool.state
  { state := g.state
    tasks := pool.tasks.set i { t with trace := t.trace ++ g.events, thread := g.thread }
    log := pool.log ++ (Event.calls g.events).map (i, ·) }

/-- One step of the pool. The index of a resumed task that does not exist changes nothing. -/
def step (pool : Pool ι V O A) : Action ι → Pool ι V O A
  | .arrive r => { pool with tasks := pool.tasks ++ [⟨r, [], .ready (serve r)⟩] }
  | .resume i =>
    match pool.tasks[i]? with
    | none => pool
    | some t => pool.resumed i t

/-- A step is the arrival of a request, the segment of an existing task, or nothing. -/
theorem step_cases (pool : Pool ι V O A) (a : Action ι) :
    (∃ r, a = .arrive r ∧
      pool.step serve a = { pool with tasks := pool.tasks ++ [⟨r, [], .ready (serve r)⟩] }) ∨
    (∃ i t, a = .resume i ∧ pool.tasks[i]? = some t ∧ pool.step serve a = pool.resumed i t) ∨
    pool.step serve a = pool := by
  cases a with
  | arrive r => exact .inl ⟨r, rfl, rfl⟩
  | resume i =>
    cases ht : pool.tasks[i]? with
    | none => exact .inr (.inr (by simp [step, ht]))
    | some t => exact .inr (.inl ⟨i, t, rfl, ht, by simp [step, ht]⟩)

/-- What a change of one task changes in a count of tasks. -/
theorem countP_set_add {α : Type} {p : α → Bool} {xs : List α} {i : ℕ} {x : α}
    (h : xs[i]? = some x) (y : α) :
    (xs.set i y).countP p + (if p x then 1 else 0) = xs.countP p + if p y then 1 else 0 := by
  obtain ⟨hi, rfl⟩ := List.getElem?_eq_some_iff.mp h
  have hle : (if p xs[i] = true then 1 else 0) ≤ xs.countP p := by
    split_ifs with hp
    · exact List.countP_pos_iff.mpr ⟨_, List.getElem_mem hi, hp⟩
    · exact Nat.zero_le _
  rw [List.countP_set hi]
  omega

/-! ## The state is a replay of the log -/

end Pool

/-- The state after performing the calls `cs` in order. -/
def Service.replay (V : Service Answer E S) (s : S) (cs : List Call) : S :=
  cs.foldl (fun s c => (V.perform c s).2) s

@[simp] theorem Service.replay_nil (V : Service Answer E S) (s : S) : V.replay s [] = s := rfl

theorem Service.replay_snoc (V : Service Answer E S) (s : S) (cs : List Call) (c : Call) :
    V.replay s (cs ++ [c]) = (V.perform c (V.replay s cs)).2 := by
  simp [Service.replay, List.foldl_append]

theorem Service.replay_append (V : Service Answer E S) (s : S) (cs cs' : List Call) :
    V.replay s (cs ++ cs') = V.replay (V.replay s cs) cs' := by
  simp [Service.replay, List.foldl_append]

theorem Program.advance_state (V : Service Answer E S) (p : Program Answer E O A) (s : S) :
    (p.advance V s).state = V.replay s (Event.calls (p.advance V s).events) := by
  induction p with
  | done a => rfl
  | fail e => rfl
  | emit o p ih => exact ih
  | call c k => rfl

theorem Thread.resume_state {V : Service Answer E S} (t : Thread V O A) (s : S) :
    (t.resume s).state = V.replay s (Event.calls (t.resume s).events) := by
  cases t with
  | ready p => exact p.advance_state V s
  | waiting c h k => exact (k (V.view c h s)).advance_state V s
  | finished r => rfl

/-- A program that runs to its end while others use the service: what it did, and the state that it
leaves. After its `n`-th call the calls `others n` are performed, and then it is resumed. -/
def Program.among (V : Service Answer E S) :
    Program Answer E O A → (ℕ → List Call) → S → List (Event Call O) × S
  | .done _, _, s => ([], s)
  | .fail _, _, s => ([], s)
  | .emit o p, others, s =>
    let rest := among V p others s
    (.sent o :: rest.1, rest.2)
  | .call c k, others, s =>
    let s' := V.replay (V.perform c s).2 (others 0)
    let rest := among V (k (V.view c (V.perform c s).1 s')) (fun n => others (n + 1)) s'
    (.called c :: rest.1, rest.2)

namespace Pool

variable {V : Service Answer E S} (serve : ι → Program Answer E O A)

/-- The logged calls of the pool, without the tasks that made them. -/
def calls (pool : Pool ι V O A) : List Call := pool.log.map Prod.snd

theorem calls_resumed (pool : Pool ι V O A) (i : ℕ) (t : Task ι V O A) :
    (pool.resumed i t).calls =
      pool.calls ++ Event.calls (t.thread.resume pool.state).events := by
  simp [calls, resumed, Function.comp_def]

/-- **The shared state is a replay of the log**: it is the initial state after the calls the
tasks performed, in the order in which they were performed. -/
theorem state_eq_replay (s : S) (as : List (Action ι)) :
    (run (step serve) (initial (V := V) (O := O) (A := A) s) as).state =
      V.replay s (run (step serve) (initial (V := V) (O := O) (A := A) s) as).calls := by
  refine run_invariant (I := fun pool : Pool ι V O A => pool.state = V.replay s pool.calls)
    (fun pool a h => ?_) rfl as
  rcases pool.step_cases serve a with ⟨r, rfl, he⟩ | ⟨i, t, rfl, -, he⟩ | he
  · rw [he]
    exact h
  · rw [he, calls_resumed, V.replay_append, ← h]
    exact t.thread.resume_state pool.state
  · rw [he]
    exact h

end Pool

/-! ## Threads that keep to some calls and outputs -/

/-- What is left of the thread keeps to the calls `C` and the outputs `D`. -/
def Thread.Within {V : Service Answer E S} (C : Call → Prop) (D : O → Prop) :
    Thread V O A → Prop
  | .ready p => p.Within C D
  | .waiting _ _ k => ∀ r, (k r).Within C D
  | .finished _ => True

section Within

variable {V : Service Answer E S} {C : Call → Prop} {D : O → Prop}

theorem Program.Within.advance {p : Program Answer E O A} (h : p.Within C D) (s : S) :
    (∀ c ∈ Event.calls (p.advance V s).events, C c) ∧
      (∀ o ∈ Event.outputs (p.advance V s).events, D o) ∧
      (p.advance V s).thread.Within C D := by
  induction p with
  | done a => exact ⟨nofun, nofun, trivial⟩
  | fail e => exact ⟨nofun, nofun, trivial⟩
  | emit o p ih =>
    obtain ⟨hcalls, houtputs, hthread⟩ := ih h.2
    refine ⟨hcalls, fun o' ho' => ?_, hthread⟩
    rcases List.mem_cons.mp ho' with rfl | ho'
    · exact h.1
    · exact houtputs o' ho'
  | call c k =>
    refine ⟨fun c' hc' => ?_, nofun, h.2⟩
    obtain rfl := List.mem_singleton.mp hc'
    exact h.1

/-- A segment keeps to the calls and outputs of its thread. -/
theorem Thread.Within.resume {t : Thread V O A} (h : t.Within C D) (s : S) :
    (∀ c ∈ Event.calls (t.resume s).events, C c) ∧
      (∀ o ∈ Event.outputs (t.resume s).events, D o) ∧ (t.resume s).thread.Within C D := by
  cases t with
  | ready p => exact Program.Within.advance h s
  | waiting c hd k => exact Program.Within.advance (h (V.view c hd s)) s
  | finished r => exact ⟨nofun, nofun, trivial⟩

end Within

namespace Pool

variable {V : Service Answer E S} (serve : ι → Program Answer E O A)

/-- The logged calls of one task. -/
def callsOf (pool : Pool ι V O A) (i : ℕ) : List Call :=
  (pool.log.filter fun e => e.1 = i).map Prod.snd

/-- Every task made the calls that are logged for it, and no others are logged. -/
structure Logged (pool : Pool ι V O A) : Prop where
  calls : ∀ i t, pool.tasks[i]? = some t → pool.callsOf i = Event.calls t.trace
  bound : ∀ e ∈ pool.log, e.1 < pool.tasks.length

theorem callsOf_resumed (pool : Pool ι V O A) (i j : ℕ) (t : Task ι V O A) :
    (pool.resumed i t).callsOf j =
      pool.callsOf j ++
        if i = j then Event.calls (t.thread.resume pool.state).events else [] := by
  by_cases h : i = j
  · simp [callsOf, resumed, h, List.filter_map, Function.comp_def]
  · simp [callsOf, resumed, h, List.filter_map, Function.comp_def]

/-- A logged call is one of the calls of a task. -/
theorem Logged.exists_callsOf {pool : Pool ι V O A} (h : pool.Logged) {c : Call}
    (hc : c ∈ pool.calls) : ∃ i t, pool.tasks[i]? = some t ∧ c ∈ pool.callsOf i := by
  obtain ⟨⟨i, c⟩, he, rfl⟩ := List.mem_map.mp hc
  refine ⟨i, _, List.getElem?_eq_getElem (h.bound _ he), ?_⟩
  exact List.mem_map.mpr ⟨(i, c), by simpa using he, rfl⟩

theorem Logged.step {pool : Pool ι V O A} (h : pool.Logged) (a : Action ι) :
    (pool.step serve a).Logged := by
  rcases pool.step_cases serve a with ⟨r, rfl, he⟩ | ⟨i, t, rfl, ht, he⟩ | he
  · rw [he]
    refine ⟨fun i t ht => ?_, fun e he => ?_⟩
    · rw [List.getElem?_append] at ht
      split_ifs at ht with hi
      · exact h.calls i t ht
      · -- nothing is logged yet for the task that arrived
        have hnew : t = ⟨r, [], .ready (serve r)⟩ := by
          rw [List.getElem?_singleton] at ht
          split_ifs at ht
          exact (Option.some.inj ht).symm
        have hnone : pool.log.filter (fun e => e.1 = i) = [] :=
          List.filter_eq_nil_iff.mpr fun e he hei => by
            have hlt := h.bound e he
            simp only [decide_eq_true_eq] at hei
            omega
        rw [hnew, callsOf, hnone]
        rfl
    · have hlt := h.bound e he
      simp only [List.length_append]
      omega
  · rw [he]
    refine ⟨fun j t' ht' => ?_, fun e hmem => ?_⟩
    · rw [callsOf_resumed]
      simp only [resumed, List.getElem?_set] at ht'
      -- the segment is logged for the task that ran it, and for no other
      split_ifs at ht' with hij hlt
      · subst hij
        obtain rfl := Option.some.inj ht'
        rw [h.calls i t ht, if_pos rfl, Event.calls_append]
      · rw [h.calls j t' ht', if_neg hij, List.append_nil]
    · have hlt : i < pool.tasks.length := (List.getElem?_eq_some_iff.mp ht).1
      simp only [resumed, List.length_set]
      rcases List.mem_append.mp hmem with hmem | hmem
      · exact h.bound e hmem
      · obtain ⟨c, -, rfl⟩ := List.mem_map.mp hmem
        exact hlt
  · rw [he]
    exact h

/-- **The log is what the tasks did**: the calls logged for a task are those of its trace. -/
theorem logged_run (s : S) (as : List (Action ι)) :
    (run (step serve) (initial s) as : Pool ι V O A).Logged :=
  run_invariant (I := Logged) (fun _ a h => h.step serve a)
    ⟨fun i t ht => by simp [initial] at ht, fun e he => by simp [initial] at he⟩ as

end Pool

/-! ## Contracts -/

/-- What the segments of the programs of a pool may do: keep the invariant `Inv`, change the
state only by `Rely`, and leave traces that `Allows` admits for their request. -/
structure Contract (ι Call O S : Type) where
  Inv : S → Prop
  Rely : S → S → Prop
  Allows : ι → List (Event Call O) → Prop
  refl : ∀ s, Rely s s
  trans : ∀ {s s' s''}, Rely s s' → Rely s' s'' → Rely s s''

/-- The segments of the program keep the contract from the state `s` on, after the trace `tr`,
whatever the other tasks do between them. -/
def Program.Guarded (V : Service Answer E S) (K : Contract ι Call O S) (r : ι) :
    List (Event Call O) → Program Answer E O A → S → Prop
  | _, .done _, _ => True
  | _, .fail _, _ => True
  | tr, .emit o p, s =>
    K.Allows r (tr ++ [.sent o]) ∧ Guarded V K r (tr ++ [.sent o]) p s
  | tr, .call c k, s =>
    K.Allows r (tr ++ [.called c]) ∧ K.Inv (V.perform c s).2 ∧ K.Rely s (V.perform c s).2 ∧
      ∀ s', K.Inv s' → K.Rely (V.perform c s).2 s' →
        Guarded V K r (tr ++ [.called c]) (k (V.view c (V.perform c s).1 s')) s'

/-- A suspended program keeps the contract from every state the other tasks may leave. -/
def Thread.Guarded {V : Service Answer E S} (K : Contract ι Call O S) (r : ι)
    (tr : List (Event Call O)) (s : S) : Thread V O A → Prop
  | .ready p => ∀ s', K.Inv s' → K.Rely s s' → p.Guarded V K r tr s'
  | .waiting c h k => ∀ s', K.Inv s' → K.Rely s s' → (k (V.view c h s')).Guarded V K r tr s'
  | .finished _ => True

/-- A program that keeps to harmless calls and outputs keeps the contract. -/
theorem Program.Within.guarded {V : Service Answer E S} {K : Contract ι Call O S} {r : ι}
    {C : Call → Prop} {D : O → Prop} {p : Program Answer E O A} (h : p.Within C D)
    (hperform : ∀ c s, C c → K.Inv s → K.Inv (V.perform c s).2 ∧ K.Rely s (V.perform c s).2)
    {Q : List (Event Call O) → Prop} (hQ : ∀ tr, Q tr → K.Allows r tr)
    (hcall : ∀ tr c, C c → Q tr → Q (tr ++ [.called c]))
    (hsent : ∀ tr o, D o → Q tr → Q (tr ++ [.sent o])) :
    ∀ {tr : List (Event Call O)} {s : S}, Q tr → K.Inv s → p.Guarded V K r tr s := by
  -- the trace and the state vary: what the others leave between two segments is a new state
  induction p with
  | done a => exact fun _ _ => trivial
  | fail e => exact fun _ _ => trivial
  | emit o p ih =>
    intro tr s ha hi
    have ha' := hsent tr o h.1 ha
    exact ⟨hQ _ ha', ih h.2 ha' hi⟩
  | call c k ih =>
    intro tr s ha hi
    have ha' := hcall tr c h.1 ha
    obtain ⟨hi', hr⟩ := hperform c s h.1 hi
    -- what comes next is guarded from every state `s'` that keeps the invariant
    exact ⟨hQ _ ha', hi', hr, fun s' his' _ => ih _ (h.2 _) ha' his'⟩

theorem Thread.Guarded.rely {V : Service Answer E S} {K : Contract ι Call O S} {r : ι}
    {tr : List (Event Call O)} {s s' : S} {t : Thread V O A} (h : t.Guarded K r tr s)
    (hs : K.Rely s s') : t.Guarded K r tr s' := by
  cases t with
  | ready p => exact fun s'' hi hr => h s'' hi (K.trans hs hr)
  | waiting c hd k => exact fun s'' hi hr => h s'' hi (K.trans hs hr)
  | finished r => exact trivial

/-- What one segment of a guarded program leaves: the invariant, a state the others rely on, an
allowed trace, and a guarded thread. -/
theorem Program.Guarded.advance {V : Service Answer E S} {K : Contract ι Call O S} {r : ι}
    {p : Program Answer E O A} :
    ∀ {tr : List (Event Call O)} {s : S}, p.Guarded V K r tr s → K.Inv s → K.Allows r tr →
      K.Inv (p.advance V s).state ∧ K.Rely s (p.advance V s).state ∧
        K.Allows r (tr ++ (p.advance V s).events) ∧
        (p.advance V s).thread.Guarded K r (tr ++ (p.advance V s).events)
          (p.advance V s).state := by
  induction p with
  | done a => exact fun _ hi ha => ⟨hi, K.refl _, by simpa using ha, trivial⟩
  | fail e => exact fun _ hi ha => ⟨hi, K.refl _, by simpa using ha, trivial⟩
  | emit o p ih =>
    intro tr s h hi _
    -- an output belongs to the segment, and the state waits for the next call
    obtain ⟨h₁, h₂, h₃, h₄⟩ := ih h.2 hi h.1
    rw [List.append_assoc] at h₃ h₄
    exact ⟨h₁, h₂, h₃, h₄⟩
  | call c k => exact fun h _ _ => ⟨h.2.1, h.2.2.1, h.1, h.2.2.2⟩

theorem Thread.Guarded.resume {V : Service Answer E S} {K : Contract ι Call O S} {r : ι}
    {tr : List (Event Call O)} {s : S} {t : Thread V O A} (h : t.Guarded K r tr s)
    (hi : K.Inv s) (ha : K.Allows r tr) :
    K.Inv (t.resume s).state ∧ K.Rely s (t.resume s).state ∧
      K.Allows r (tr ++ (t.resume s).events) ∧
      (t.resume s).thread.Guarded K r (tr ++ (t.resume s).events) (t.resume s).state := by
  cases t with
  | ready p => exact (h s hi (K.refl s)).advance hi ha
  | waiting c hd k => exact (h s hi (K.refl s)).advance hi ha
  | finished e => exact ⟨hi, K.refl s, by simpa [Thread.resume] using ha, trivial⟩

namespace Pool

variable {V : Service Answer E S} {serve : ι → Program Answer E O A} {K : Contract ι Call O S}

/-- The invariant holds, and every task left an allowed trace and keeps the contract. -/
structure Sound (K : Contract ι Call O S) (pool : Pool ι V O A) : Prop where
  inv : K.Inv pool.state
  allows : ∀ t ∈ pool.tasks, K.Allows t.request t.trace
  guarded : ∀ t ∈ pool.tasks, t.thread.Guarded K t.request t.trace pool.state

theorem Sound.step (hserve : ∀ r s, K.Inv s → (serve r).Guarded V K r [] s)
    (hnil : ∀ r, K.Allows r []) {pool : Pool ι V O A} (h : pool.Sound K) (a : Action ι) :
    (pool.step serve a).Sound K := by
  rcases pool.step_cases serve a with ⟨r, rfl, he⟩ | ⟨i, t, rfl, ht, he⟩ | he
  · rw [he]
    -- a task that has just arrived has done nothing
    refine ⟨h.inv, fun t ht => ?_, fun t ht => ?_⟩
    · rcases List.mem_append.mp ht with ht | ht
      · exact h.allows t ht
      · obtain rfl := List.mem_singleton.mp ht
        exact hnil r
    · rcases List.mem_append.mp ht with ht | ht
      · exact h.guarded t ht
      · obtain rfl := List.mem_singleton.mp ht
        exact fun s' hi _ => hserve r s' hi
  · have hmem : t ∈ pool.tasks := List.mem_of_getElem? ht
    obtain ⟨h₁, h₂, h₃, h₄⟩ := (h.guarded t hmem).resume h.inv (h.allows t hmem)
    rw [he]
    -- the other tasks rely on the state that the segment leaves
    refine ⟨h₁, fun t' ht' => ?_, fun t' ht' => ?_⟩
    · rcases List.mem_or_eq_of_mem_set ht' with ht' | rfl
      · exact h.allows t' ht'
      · exact h₃
    · rcases List.mem_or_eq_of_mem_set ht' with ht' | rfl
      · exact (h.guarded t' ht').rely h₂
      · exact h₄
  · rw [he]
    exact h

/-- **Programs that keep a contract keep it in every interleaving.** -/
theorem sound_run (hserve : ∀ r s, K.Inv s → (serve r).Guarded V K r [] s)
    (hnil : ∀ r, K.Allows r []) {s : S} (hs : K.Inv s) (as : List (Action ι)) :
    (run (step serve) (initial s) as : Pool ι V O A).Sound K :=
  run_invariant (fun _ a h => h.step hserve hnil a)
    ⟨hs, fun t ht => by simp [initial] at ht, fun t ht => by simp [initial] at ht⟩ as

end Pool

end Process
