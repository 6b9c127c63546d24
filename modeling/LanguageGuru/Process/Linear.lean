import LanguageGuru.Process.Pool
import Mathlib.Data.List.Nodup

/-!
# Linearizable programs

A program makes several calls while others change the state. It is atomic when it takes effect at
one of its calls: that call changes the state as the program does when it runs alone, what the
program emits afterwards is its answer in the state in which it took effect, and all its other calls
only read. Any interleaving of atomic programs leaves the state that a sequential run leaves, in the
order in which the programs took effect, and answers each of them as that run does.

## Main definitions

* `Meaning`: what a request does when it runs alone
* `Environment`: what programs may rely on while others run
* `Program.Atomic`, `Program.Reports`: programs before and after they take effect
* `Pool.Linearization`: the requests of a pool in the order in which they took effect

## Main results

* `Program.atomic_send`, `Program.atomic_read`, `Program.atomic_effect`: the ways to be atomic
* `Pool.linearizable`: every interleaving of atomic programs has a linearization, and it extends
  those of the earlier moments
-/

namespace Process

variable {Call : Type} {Answer : Call → Type} {E O A S ι : Type}

/-- What a request does when it runs alone: the state that it leaves, the outputs that count as its
answer, and the states in which it may end without one. -/
structure Meaning (S O : Type) where
  next : S → S
  answers : S → O → Prop
  silent : S → Prop

/-- What programs rely on: the states in which they run, and what the others leave between their
segments. -/
structure Environment (S : Type) where
  Inv : S → Prop
  Rely : S → S → Prop
  refl : ∀ s, Rely s s
  trans : ∀ {s s' s''}, Rely s s' → Rely s' s'' → Rely s s''

/-- A program that has taken effect: its calls leave the state alone, and it ends with one output,
which is `good`. -/
def Program.Reports (V : Service Answer E S) (K : Environment S) (good : O → Prop) :
    Program Answer E O A → S → Prop
  | .done _, _ => False
  | .fail _, _ => False
  | .emit o p, _ => good o ∧ ∃ a, p = .done a
  | .call c k, s => (V.perform c s).2 = s ∧
    ∀ s', K.Inv s' → K.Rely s s' → Reports V K good (k (V.view c (V.perform c s).1 s')) s'

/-- A program that has not taken effect. It ends without an output when `m` permits it, it emits an
answer while `m` changes nothing, it takes effect at its next call, or that call only reads. -/
def Program.Atomic (V : Service Answer E S) (K : Environment S) (m : Meaning S O) :
    Program Answer E O A → S → Prop
  | .done _, s => m.silent s
  | .fail _, s => m.silent s
  | .emit o p, s => m.next s = s ∧ m.answers s o ∧ ∃ a, p = .done a
  | .call c k, s =>
    ((V.perform c s).2 = m.next s ∧ ∀ s', K.Inv s' → K.Rely (m.next s) s' →
      (k (V.view c (V.perform c s).1 s')).Reports V K (m.answers s) s') ∨
    ((V.perform c s).2 = s ∧ ∀ s', K.Inv s' → K.Rely s s' →
      Atomic V K m (k (V.view c (V.perform c s).1 s')) s')

section Programs

variable {V : Service Answer E S} {K : Environment S} {m : Meaning S O}

theorem Program.reports_send {good : O → Prop} {o : O} (h : good o) (s : S) :
    (Program.send o : Program Answer E O Unit).Reports V K good s := ⟨h, (), rfl⟩

theorem Program.atomic_send {o : O} {s : S} (hnext : m.next s = s) (h : m.answers s o) :
    (Program.send o : Program Answer E O Unit).Atomic V K m s := ⟨hnext, h, (), rfl⟩

/-- A call that only reads. -/
theorem Program.atomic_read {c : Call} {k : Except E (Answer c) → Program Answer E O A} {s : S}
    (hs : (V.perform c s).2 = s) (h : ∀ s', K.Inv s' → K.Rely s s' →
      (k (V.view c (V.perform c s).1 s')).Atomic V K m s') :
    (Program.call c k).Atomic V K m s := .inr ⟨hs, h⟩

/-- The call at which the program takes effect. -/
theorem Program.atomic_effect {c : Call} {k : Except E (Answer c) → Program Answer E O A} {s : S}
    (hs : (V.perform c s).2 = m.next s) (h : ∀ s', K.Inv s' → K.Rely (m.next s) s' →
      (k (V.view c (V.perform c s).1 s')).Reports V K (m.answers s) s') :
    (Program.call c k).Atomic V K m s := .inl ⟨hs, h⟩

end Programs

/-- Whether the program of a thread has ended. -/
def Thread.hasEnded {V : Service Answer E S} : Thread V O A → Bool
  | .finished _ => true
  | _ => false

namespace Pool

variable {V : Service Answer E S} (serve : ι → Program Answer E O A) (m : ι → Meaning S O)

/-- The pool after the actions `as`, started without tasks in the state `s₀`. -/
abbrev history (s₀ : S) (as : List (Action ι)) : Pool ι V O A := run (step serve) (initial s₀) as

/-- The state after requests that run alone, one after another. -/
abbrev sequential (s₀ : S) (order : List (ℕ × ι)) : S :=
  run (fun s r => (m r).next s) s₀ (order.map Prod.snd)

/-- The requests of the pool that took effect, each with its index, in the order in which they did.
Run alone in this order they lead to the state of the pool and are answered as they were. -/
structure Linearization (s₀ : S) (order : List (ℕ × ι)) (pool : Pool ι V O A) : Prop where
  state : pool.state = sequential m s₀ order
  once : (order.map Prod.fst).Nodup
  arrived : ∀ x ∈ order, ∃ t, pool.tasks[x.1]? = some t ∧ t.request = x.2
  answered : ∀ i t, pool.tasks[i]? = some t → t.outputs = [] ∨
    ∃ o past, t.outputs = [o] ∧ past ++ [(i, t.request)] <+: order ∧
      (m t.request).answers (sequential m s₀ past) o
  silent : ∀ (i : ℕ) (t : Task ι V O A), pool.tasks[i]? = some t → t.thread.hasEnded = true →
    t.outputs = [] → i ∉ order.map Prod.fst ∧ (m t.request).silent pool.state

/-- The request of an action, if it is an arrival. -/
def arrival : Action ι → Option ι
  | .arrive r => some r
  | .resume _ => none

/-- How far a task is: it has not taken effect, it has and will answer, or it has ended without an
output or with one. -/
inductive Stage (K : Environment S) (s₀ : S) (order : List (ℕ × ι)) (i : ℕ) (r : ι) (s : S) :
    List O → Thread V O A → Prop
  | ready (p : Program Answer E O A) (hi : i ∉ order.map Prod.fst)
      (h : ∀ s', K.Inv s' → K.Rely s s' → p.Atomic V K (m r) s') :
      Stage K s₀ order i r s [] (.ready p)
  | waiting (c : Call) (hd : V.Handle c) (k : Except E (Answer c) → Program Answer E O A)
      (hi : i ∉ order.map Prod.fst)
      (h : ∀ s', K.Inv s' → K.Rely s s' → (k (V.view c hd s')).Atomic V K (m r) s') :
      Stage K s₀ order i r s [] (.waiting c hd k)
  | reporting (c : Call) (hd : V.Handle c) (k : Except E (Answer c) → Program Answer E O A)
      (past : List (ℕ × ι)) (hpast : past ++ [(i, r)] <+: order)
      (h : ∀ s', K.Inv s' → K.Rely s s' →
        (k (V.view c hd s')).Reports V K ((m r).answers (sequential m s₀ past)) s') :
      Stage K s₀ order i r s [] (.waiting c hd k)
  | silent (result : Except E A) (hi : i ∉ order.map Prod.fst) (h : (m r).silent s) :
      Stage K s₀ order i r s [] (.finished result)
  | answered (result : Except E A) (o : O) (past : List (ℕ × ι))
      (hpast : past ++ [(i, r)] <+: order) (h : (m r).answers (sequential m s₀ past) o) :
      Stage K s₀ order i r s [o] (.finished result)

/-- The invariant behind a linearization: every task is at a stage. -/
structure Staged (K : Environment S) (s₀ : S) (order : List (ℕ × ι)) (pool : Pool ι V O A) :
    Prop where
  state : pool.state = sequential m s₀ order
  once : (order.map Prod.fst).Nodup
  arrived : ∀ x ∈ order, ∃ t, pool.tasks[x.1]? = some t ∧ t.request = x.2
  stages : ∀ i t, pool.tasks[i]? = some t →
    Stage m K s₀ order i t.request pool.state t.outputs t.thread

variable {serve m} {K : Environment S} {s₀ : S} {order : List (ℕ × ι)} {pool : Pool ι V O A}

/-- A staged pool is linearized. -/
theorem Staged.linearization (h : Staged m K s₀ order pool) : Linearization m s₀ order pool where
  state := h.state
  once := h.once
  arrived := h.arrived
  answered i t ht := by
    have hstage := h.stages i t ht
    generalize t.outputs = os, t.thread = thread at hstage ⊢
    cases hstage with
    | answered result o past hpast h => exact .inr ⟨o, past, rfl, hpast, h⟩
    | _ => exact .inl rfl
  silent i t ht hended hsilent := by
    have hstage := h.stages i t ht
    generalize t.outputs = os, t.thread = thread at hstage hended hsilent
    cases hstage with
    | silent _ hi h => exact ⟨hi, h⟩
    | answered _ o past hpast h => cases hsilent
    | _ => cases hended

/-- A stage stays what it is while other tasks take effect. -/
theorem Stage.mono (hsilent : ∀ r s s', K.Rely s s' → (m r).silent s → (m r).silent s')
    {order' : List (ℕ × ι)} {i : ℕ} {r : ι} {s s' : S} {os : List O} {t : Thread V O A}
    (h : Stage m K s₀ order i r s os t) (hle : order <+: order')
    (hi : i ∉ order.map Prod.fst → i ∉ order'.map Prod.fst) (hs : K.Rely s s') :
    Stage m K s₀ order' i r s' os t := by
  cases h with
  | ready p hnot h => exact .ready p (hi hnot) fun s'' hinv hs' => h s'' hinv (K.trans hs hs')
  | waiting c hd k hnot h =>
    exact .waiting c hd k (hi hnot) fun s'' hinv hs' => h s'' hinv (K.trans hs hs')
  | reporting c hd k past hpast h =>
    exact .reporting c hd k past (hpast.trans hle) fun s'' hinv hs' => h s'' hinv (K.trans hs hs')
  | silent result hnot h => exact .silent result (hi hnot) (hsilent r s s' hs h)
  | answered result o past hpast h => exact .answered result o past (hpast.trans hle) h

theorem sequential_snoc (i : ℕ) (r : ι) :
    sequential m s₀ (order ++ [(i, r)]) = (m r).next (sequential m s₀ order) := by
  rw [sequential, List.map_append]
  exact run_snoc _ _ _ _

/-- What a segment of the task `i` leaves: the order goes on by this task at most, it leads to the
state, and the task is at a stage. -/
structure Resumed (m : ι → Meaning S O) (K : Environment S) (s₀ : S) (order : List (ℕ × ι)) (i : ℕ)
    (r : ι) (os : List O) (g : Segment V O A) (order' : List (ℕ × ι)) : Prop where
  order : order' = order ∨ i ∉ order.map Prod.fst ∧ order' = order ++ [(i, r)]
  state : g.state = sequential m s₀ order'
  stage : Stage m K s₀ order' i r g.state (os ++ Event.outputs g.events) g.thread

section Segments

variable {i : ℕ} {r : ι} {p : Program Answer E O A}

/-- A segment of a task that has not taken effect. -/
theorem resumed_of_atomic (hi : i ∉ order.map Prod.fst)
    (h : p.Atomic V K (m r) (sequential m s₀ order)) :
    ∃ order', Resumed m K s₀ order i r [] (p.advance V (sequential m s₀ order)) order' := by
  cases p with
  | done a => exact ⟨order, .inl rfl, rfl, .silent _ hi h⟩
  | fail e => exact ⟨order, .inl rfl, rfl, .silent _ hi h⟩
  | emit o p =>
    obtain ⟨hnext, hanswers, a, rfl⟩ := h
    refine ⟨order ++ [(i, r)], .inr ⟨hi, rfl⟩, ?_, .answered _ o order List.prefix_rfl hanswers⟩
    rw [sequential_snoc, hnext]
    rfl
  | call c k =>
    rcases h with ⟨hs, h⟩ | ⟨hs, h⟩
    · -- the task takes effect here
      refine ⟨order ++ [(i, r)], .inr ⟨hi, rfl⟩, ?_, .reporting c _ k order List.prefix_rfl ?_⟩
      · rw [sequential_snoc, ← hs]
        rfl
      · rw [Program.advance_call, hs]
        exact h
    · refine ⟨order, .inl rfl, hs, .waiting c _ k hi ?_⟩
      rw [Program.advance_call, hs]
      exact h

/-- A segment of a task that has taken effect. -/
theorem resumed_of_reports {past : List (ℕ × ι)} (hpast : past ++ [(i, r)] <+: order)
    (h : p.Reports V K ((m r).answers (sequential m s₀ past)) (sequential m s₀ order)) :
    Resumed m K s₀ order i r [] (p.advance V (sequential m s₀ order)) order := by
  cases p with
  | done a => exact h.elim
  | fail e => exact h.elim
  | emit o p =>
    obtain ⟨hgood, a, rfl⟩ := h
    exact ⟨.inl rfl, rfl, .answered _ o past hpast hgood⟩
  | call c k =>
    obtain ⟨hs, h⟩ := h
    refine ⟨.inl rfl, hs, .reporting c _ k past hpast ?_⟩
    rw [Program.advance_call, hs]
    exact h

/-- The next segment of a task. -/
theorem Stage.resume {os : List O} {t : Thread V O A}
    (h : Stage m K s₀ order i r (sequential m s₀ order) os t)
    (hinv : K.Inv (sequential m s₀ order)) :
    ∃ order', Resumed m K s₀ order i r os (t.resume (sequential m s₀ order)) order' := by
  cases h with
  | ready p hi h => exact resumed_of_atomic hi (h _ hinv (K.refl _))
  | waiting c hd k hi h => exact resumed_of_atomic hi (h _ hinv (K.refl _))
  | reporting c hd k past hpast h =>
    exact ⟨order, resumed_of_reports hpast (h _ hinv (K.refl _))⟩
  | silent result hi h => exact ⟨order, .inl rfl, rfl, .silent result hi h⟩
  | answered result o past hpast h =>
    refine ⟨order, .inl rfl, rfl, ?_⟩
    rw [Thread.resume, Event.outputs_nil, List.append_nil]
    exact .answered result o past hpast h

end Segments

/-- What the calls of a segment leave is what the others rely on. -/
theorem rely_replay (hperform : ∀ c s, K.Rely s (V.perform c s).2) (cs : List Call) (s : S) :
    K.Rely s (V.replay s cs) := by
  induction cs using List.reverseRecOn with
  | nil => exact K.refl s
  | append_singleton cs c ih =>
    rw [Service.replay_snoc]
    exact K.trans ih (hperform c _)

/-- What an interleaving leaves is what the programs rely on. -/
theorem rely_history (hperform : ∀ c s, K.Rely s (V.perform c s).2) (as : List (Action ι)) :
    K.Rely s₀ (history (V := V) serve s₀ as).state := by
  rw [history, state_eq_replay]
  exact rely_replay hperform _ _

/-- The arrival of a request. -/
theorem Staged.arrive (hserve : ∀ r s, K.Inv s → (serve r).Atomic V K (m r) s)
    (h : Staged m K s₀ order pool) (r : ι) :
    Staged m K s₀ order { pool with tasks := pool.tasks ++ [⟨r, [], .ready (serve r)⟩] } where
  state := h.state
  once := h.once
  arrived x hx := by
    obtain ⟨t, ht, hr⟩ := h.arrived x hx
    exact ⟨t, List.getElem?_append_left (List.getElem?_eq_some_iff.mp ht).1 ▸ ht, hr⟩
  stages i t ht := by
    rw [List.getElem?_append] at ht
    split_ifs at ht with hlt
    · exact h.stages i t ht
    · rw [List.getElem?_singleton] at ht
      split_ifs at ht
      obtain rfl := Option.some.inj ht
      refine .ready _ (fun hmem => ?_) fun s' hinv _ => hserve r s' hinv
      -- only tasks that have arrived are in the order
      obtain ⟨x, hx, rfl⟩ := List.mem_map.mp hmem
      obtain ⟨t', ht', -⟩ := h.arrived x hx
      exact hlt (List.getElem?_eq_some_iff.mp ht').1

/-- A segment leaves every task its request. -/
theorem request_resumed {i : ℕ} {t : Task ι V O A} (ht : pool.tasks[i]? = some t) {j : ℕ}
    {u : Task ι V O A} (hu : pool.tasks[j]? = some u) :
    ∃ u', (pool.resumed i t).tasks[j]? = some u' ∧ u'.request = u.request := by
  by_cases hij : i = j
  · subst hij
    obtain rfl := Option.some.inj (ht.symm.trans hu)
    exact ⟨_, List.getElem?_set_self (List.getElem?_eq_some_iff.mp ht).1, rfl⟩
  · exact ⟨u, (List.getElem?_set_ne hij).trans hu, rfl⟩

/-- The next segment of the task at index `i`. -/
theorem Staged.resume (hperform : ∀ c s, K.Rely s (V.perform c s).2)
    (hsilent : ∀ r s s', K.Rely s s' → (m r).silent s → (m r).silent s')
    (h : Staged m K s₀ order pool) (hinv : K.Inv pool.state) {i : ℕ} {t : Task ι V O A}
    (ht : pool.tasks[i]? = some t) :
    ∃ order', order <+: order' ∧ Staged m K s₀ order' (pool.resumed i t) := by
  have hstage := h.stages i t ht
  rw [h.state] at hstage hinv
  obtain ⟨order', horder, hstate, hstage'⟩ := hstage.resume hinv
  rw [← h.state] at hstate hstage'
  have hi : i < pool.tasks.length := (List.getElem?_eq_some_iff.mp ht).1
  have hle : order <+: order' := by
    rcases horder with rfl | ⟨-, rfl⟩
    · exact List.prefix_rfl
    · exact List.prefix_append _ _
  refine ⟨order', hle, hstate, ?_, fun x hx => ?_, fun j t' ht' => ?_⟩
  · rcases horder with rfl | ⟨hnot, rfl⟩
    · exact h.once
    · rw [List.map_append, List.nodup_append]
      refine ⟨h.once, List.pairwise_singleton _ _, fun x hx y hy heq => hnot ?_⟩
      obtain rfl := List.mem_singleton.mp hy
      exact heq ▸ hx
  · have hx' : x ∈ order ∨ x = (i, t.request) := by
      rcases horder with rfl | ⟨-, rfl⟩
      · exact .inl hx
      · simpa using hx
    rcases hx' with hx | rfl
    · obtain ⟨u, hu, hr⟩ := h.arrived x hx
      obtain ⟨u', hu', hr'⟩ := request_resumed ht hu
      exact ⟨u', hu', hr'.trans hr⟩
    · exact request_resumed ht ht
  · simp only [resumed, List.getElem?_set] at ht'
    split_ifs at ht' with hij
    · subst hij
      obtain rfl := Option.some.inj ht'
      simp only [Task.outputs, Event.outputs_append] at hstage' ⊢
      exact hstage'
    · refine (h.stages j t' ht').mono hsilent hle (fun hnot => ?_) ?_
      · rcases horder with rfl | ⟨-, rfl⟩
        · exact hnot
        · simpa [hnot] using Ne.symm hij
      · show K.Rely _ (t.thread.resume pool.state).state
        rw [t.thread.resume_state]
        exact rely_replay hperform _ _

/-- **A step extends the linearization.** -/
theorem Staged.step (hperform : ∀ c s, K.Rely s (V.perform c s).2)
    (hserve : ∀ r s, K.Inv s → (serve r).Atomic V K (m r) s)
    (hsilent : ∀ r s s', K.Rely s s' → (m r).silent s → (m r).silent s')
    (h : Staged m K s₀ order pool) (hinv : K.Inv pool.state) (a : Action ι) :
    ∃ order', order <+: order' ∧ Staged m K s₀ order' (pool.step serve a) := by
  rcases pool.step_cases serve a with ⟨r, rfl, he⟩ | ⟨i, t, rfl, ht, he⟩ | he
  · rw [he]
    exact ⟨order, List.prefix_rfl, h.arrive hserve r⟩
  · rw [he]
    exact h.resume hperform hsilent hinv ht
  · rw [he]
    exact ⟨order, List.prefix_rfl, h⟩

/-- **Every interleaving of atomic programs has a linearization**, and it extends those of the
earlier moments: a request that is answered before another one arrives takes effect before it. The
states that the programs rely on are those that a linearization can lead to. -/
theorem linearizable (hperform : ∀ c s, K.Rely s (V.perform c s).2)
    (hserve : ∀ r s, K.Inv s → (serve r).Atomic V K (m r) s)
    (hsilent : ∀ r s s', K.Rely s s' → (m r).silent s → (m r).silent s') (as : List (Action ι))
    (hinv : ∀ bs order, bs <+: as →
      Linearization m s₀ order (history (V := V) serve s₀ bs) →
      K.Inv (history (V := V) serve s₀ bs).state) :
    ∃ order, Linearization m s₀ order (history (V := V) serve s₀ as) ∧
      ∀ bs, bs <+: as → ∃ order', order' <+: order ∧
        Linearization m s₀ order' (history (V := V) serve s₀ bs) := by
  suffices h : ∃ order, Staged m K s₀ order (history (V := V) serve s₀ as) ∧
      ∀ bs, bs <+: as → ∃ order', order' <+: order ∧
        Linearization m s₀ order' (history (V := V) serve s₀ bs) by
    obtain ⟨order, hstaged, hprefixes⟩ := h
    exact ⟨order, hstaged.linearization, hprefixes⟩
  induction as using List.reverseRecOn with
  | nil =>
    have hinitial : Staged m K s₀ [] (history (V := V) serve s₀ []) :=
      ⟨rfl, List.nodup_nil, nofun, fun i t ht => by simp [history, initial] at ht⟩
    refine ⟨[], hinitial, fun bs hbs => ⟨[], List.prefix_rfl, ?_⟩⟩
    rw [List.prefix_nil.mp hbs]
    exact hinitial.linearization
  | append_singleton as a ih =>
    obtain ⟨order, hstaged, hprefixes⟩ :=
      ih fun bs order hbs => hinv bs order (hbs.trans (List.prefix_append _ _))
    obtain ⟨order', hle, hstaged'⟩ := hstaged.step hperform hserve hsilent
      (hinv as order (List.prefix_append _ _) hstaged.linearization) a
    rw [history, run_snoc]
    refine ⟨order', hstaged', fun bs hbs => ?_⟩
    rcases List.prefix_concat_iff.mp hbs with rfl | hbs
    · refine ⟨order', List.prefix_rfl, ?_⟩
      rw [history, run_snoc]
      exact hstaged'.linearization
    · obtain ⟨order'', hle', hlinear⟩ := hprefixes bs hbs
      exact ⟨order'', hle'.trans hle, hlinear⟩

/-- The tasks are those of the requests that arrived, in order. -/
theorem map_request_history (as : List (Action ι)) :
    (history (V := V) serve s₀ as).tasks.map Task.request = as.filterMap arrival := by
  induction as using List.reverseRecOn with
  | nil => rfl
  | append_singleton as a ih =>
    have hsnoc : history (V := V) serve s₀ (as ++ [a]) =
        step serve (history (V := V) serve s₀ as) a := run_snoc _ _ _ _
    rw [hsnoc, List.filterMap_append, ← ih]
    cases a with
    | arrive r =>
      rw [step, List.map_append]
      rfl
    | resume i =>
      have hnone : [Action.resume (ι := ι) i].filterMap arrival = [] := rfl
      rw [hnone, List.append_nil, step]
      cases ht : (history (V := V) serve s₀ as).tasks[i]? with
      | none => rfl
      | some t =>
        -- a segment leaves its task the request
        obtain ⟨hi, rfl⟩ := List.getElem?_eq_some_iff.mp ht
        simp only [resumed]
        generalize (history (V := V) serve s₀ as).tasks = tasks at hi ⊢
        have hmap : i < (tasks.map Task.request).length := by simpa using hi
        have hset : (tasks.map Task.request).set i (tasks.map Task.request)[i] =
            tasks.map Task.request := List.set_getElem_self hmap
        simpa only [List.map_set, List.getElem_map] using hset

/-- Requests that arrive with different keys take effect with different keys. -/
theorem Linearization.nodup_map {κ : Type} (h : Linearization m s₀ order pool) {key : ι → κ}
    (hkeys : ((pool.tasks.map Task.request).map key).Nodup) :
    ((order.map Prod.snd).map key).Nodup := by
  have hfind : ∀ x ∈ order, ((pool.tasks.map Task.request).map key)[x.1]? = some (key x.2) := by
    intro x hx
    obtain ⟨t, ht, hr⟩ := h.arrived x hx
    simp [ht, hr]
  rw [List.map_map]
  refine List.Nodup.map_on (fun x hx y hy heq => ?_) (List.Nodup.of_map _ h.once)
  -- entries with one key have one index, and so they are the same entry
  have hlt := (List.getElem?_eq_some_iff.mp (hfind x hx)).1
  have hxy : x.1 = y.1 := (List.getElem?_inj hlt hkeys).mp <| by
    rw [hfind x hx, hfind y hy]
    exact congrArg some heq
  exact List.inj_on_of_nodup_map h.once hx hy hxy

/-- A request takes effect once. -/
theorem Linearization.past_unique (h : Linearization m s₀ order pool) {past past' : List (ℕ × ι)}
    {i : ℕ} {r r' : ι} (hpast : past ++ [(i, r)] <+: order)
    (hpast' : past' ++ [(i, r')] <+: order) : past = past' := by
  have hget : ∀ past r, past ++ [(i, r)] <+: order →
      (order.map Prod.fst)[past.length]? = some i := by
    rintro past r ⟨rest, rfl⟩
    simp
  have hlen : past.length = past'.length := by
    have hlt := (List.getElem?_eq_some_iff.mp (hget past r hpast)).1
    exact (List.getElem?_inj hlt h.once).mp ((hget _ _ hpast).trans (hget _ _ hpast').symm)
  have htake : ∀ past r, past ++ [(i, r)] <+: order → past = order.take past.length := by
    rintro past r ⟨rest, rfl⟩
    simp
  rw [htake past r hpast, htake past' r' hpast', hlen]

/-- What took effect by an earlier moment comes before a request that arrives after it. -/
theorem Linearization.prefix_past {order' : List (ℕ × ι)} {pool' : Pool ι V O A}
    (h : Linearization m s₀ order' pool') (hle : order' <+: order) {j : ℕ} {r : ι}
    (hj : pool'.tasks.length ≤ j) {past : List (ℕ × ι)} (hpast : past ++ [(j, r)] <+: order) :
    order' <+: past := by
  have hnot : (j, r) ∉ order' := by
    intro hmem
    obtain ⟨u, hu, -⟩ := h.arrived _ hmem
    exact absurd (List.getElem?_eq_some_iff.mp hu).1 hj.not_gt
  have hself : (j, r) ∈ past ++ [(j, r)] := List.mem_append_right past List.mem_cons_self
  rcases List.prefix_or_prefix_of_prefix hpast hle with hlater | hearlier
  · exact absurd (hlater.subset hself) hnot
  · rcases List.prefix_concat_iff.mp hearlier with rfl | hearlier
    · exact absurd hself hnot
    · exact hearlier

/-- A request that is answered at an earlier moment takes effect before those that arrive later. -/
theorem Linearization.precedes {order' : List (ℕ × ι)} {pool' : Pool ι V O A}
    (h : Linearization m s₀ order' pool') (hle : order' <+: order) {i : ℕ} {t : Task ι V O A}
    (ht : pool'.tasks[i]? = some t) (hanswered : t.outputs ≠ []) {j : ℕ} {r : ι}
    (hj : pool'.tasks.length ≤ j) {past : List (ℕ × ι)} (hpast : past ++ [(j, r)] <+: order) :
    i ∈ past.map Prod.fst := by
  rcases h.answered i t ht with hnone | ⟨-, before, -, hbefore, -⟩
  · exact absurd hnone hanswered
  · have hi : i ∈ (before ++ [(i, t.request)]).map Prod.fst := by simp
    exact ((hbefore.trans (h.prefix_past hle hj hpast)).map Prod.fst).subset hi

/-- The request at index `k` was not answered yet when the one at index `i` arrived. -/
def NotAnsweredBefore (serve : ι → Program Answer E O A) (s₀ : S) (as : List (Action ι))
    (i k : ℕ) : Prop :=
  ∀ bs, bs <+: as → (history (V := V) serve s₀ bs).tasks.length ≤ i →
    ∀ t, (history (V := V) serve s₀ bs).tasks[k]? = some t → t.outputs = []

/-- A request that takes effect after another one, or is that one, was not answered when that one
arrived. -/
theorem Linearization.notAnsweredBefore {as : List (Action ι)}
    (h : Linearization m s₀ order (history (V := V) serve s₀ as))
    (hprefixes : ∀ bs, bs <+: as → ∃ order', order' <+: order ∧
      Linearization m s₀ order' (history (V := V) serve s₀ bs)) {past later : List (ℕ × ι)} {i : ℕ}
    {r : ι} (hpast : past ++ (i, r) :: later <+: order) {x : ℕ × ι} (hx : x ∈ (i, r) :: later) :
    NotAnsweredBefore (V := V) serve s₀ as i x.1 := by
  intro bs hbs hi t ht
  obtain ⟨order', hle, h'⟩ := hprefixes bs hbs
  by_contra hanswered
  have hself : past ++ [(i, r)] <+: order := by
    refine List.IsPrefix.trans ?_ hpast
    exact (List.prefix_append_right_inj past).mpr (List.prefix_append [(i, r)] later)
  have hmem : x.1 ∈ past.map Prod.fst := h'.precedes hle ht hanswered hi hself
  -- a request takes effect once
  have honce : ((past ++ (i, r) :: later).map Prod.fst).Nodup := (hpast.map _).sublist.nodup h.once
  rw [List.map_append] at honce
  exact (List.nodup_append.mp honce).2.2 _ hmem _ (List.mem_map_of_mem hx) rfl

/-- Only requests that arrived take effect. -/
theorem Linearization.mem_requests (h : Linearization m s₀ order pool) {r : ι}
    (hr : r ∈ order.map Prod.snd) : r ∈ pool.tasks.map Task.request := by
  obtain ⟨x, hx, rfl⟩ := List.mem_map.mp hr
  obtain ⟨t, ht, hreq⟩ := h.arrived x hx
  exact List.mem_map.mpr ⟨t, List.mem_of_getElem? ht, hreq⟩

end Pool

end Process
