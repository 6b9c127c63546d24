import Mathlib.Data.List.Basic

/-!
# Asynchronous programs

An asynchronous program calls a service and awaits its answers. It runs in segments: up to a
call it runs without interruption, the call itself is performed atomically, and the rest of the
program waits until it is resumed. A service hands out a handle for every call it performs, and
the awaiting program sees the answer behind the handle in the state in which it is resumed: a
service that hands out references to its records shows the record of that moment, one that hands
out copies shows the copy.

## Main definitions

* `Program Answer E O A`: programs with outputs `O`, failures `E` and result `A`
* `Program.await`, `Program.attempt`: an awaited call, and a program whose failure is caught
* `Service Answer E S`, `Service.answer`: the calls of a service with state `S`, and their answers
* `Program.exec`: the program run without interference
* `Program.journal`: the calls that such a run makes, with their answers
* `Program.Within C D`: programs that keep to the calls `C` and the outputs `D`
* `Program.AnswersUnless bad`: programs that emit exactly one output, and none after a bad answer
* `Program.Concludes Q`: programs that emit one output at most, as they end, with `Q` of the calls
  they have made and of the output

## Main results

* `AnswersUnless.exec`: a run of such a program emits one output or none, by its journal
* `Concludes.exec`: a run of such a program ends with `Q` of its journal
-/

namespace Process

/-- A program over a service: it ends with a value or with a failure, emits an output, or calls
the service and continues with the answer or the rejection. -/
inductive Program {Call : Type} (Answer : Call → Type) (E O A : Type) where
  | done (a : A)
  | fail (e : E)
  | emit (o : O) (next : Program Answer E O A)
  | call (c : Call) (next : Except E (Answer c) → Program Answer E O A)

/-- A service with state `S`: `perform` is the atomic part of a call, and `view` is what the
awaiting program sees of the result when it is resumed. -/
structure Service {Call : Type} (Answer : Call → Type) (E S : Type) where
  Handle : Call → Type
  perform : (c : Call) → S → Handle c × S
  view : (c : Call) → Handle c → S → Except E (Answer c)

/-- The answer to a call without interference. -/
def Service.answer {Call : Type} {Answer : Call → Type} {E S : Type} (V : Service Answer E S)
    (c : Call) (s : S) : Except E (Answer c) := V.view c (V.perform c s).1 (V.perform c s).2

namespace Program

variable {Call : Type} {Answer : Call → Type} {E O A B S : Type}

/-- Run `p`, then `f` on its value. -/
protected def bind : Program Answer E O A → (A → Program Answer E O B) → Program Answer E O B
  | done a, f => f a
  | fail e, _ => fail e
  | emit o p, f => emit o (p.bind f)
  | call c k, f => call c fun r => (k r).bind f

instance : Monad (Program Answer E O) where
  pure := done
  bind := Program.bind

/-- Continue with an answer, and fail with a rejection. -/
def onAnswer (f : A → Program Answer E O B) : Except E A → Program Answer E O B
  | .ok a => f a
  | .error e => fail e

/-- Make a call and await its answer; a rejection is a failure of the program. -/
def await (c : Call) : Program Answer E O (Answer c) := call c (onAnswer done)

/-- Emit an output. -/
def send (o : O) : Program Answer E O Unit := emit o (done ())

/-- Run a program and catch its failure. -/
def attempt : Program Answer E O A → Program Answer E O (Except E A)
  | done a => done (.ok a)
  | fail e => done (.error e)
  | emit o p => emit o p.attempt
  | call c k => call c fun r => (k r).attempt

@[simp] theorem pure_eq (a : A) : (pure a : Program Answer E O A) = done a := rfl

@[simp] theorem done_bind (a : A) (f : A → Program Answer E O B) : done a >>= f = f a := rfl

@[simp] theorem fail_bind (e : E) (f : A → Program Answer E O B) : fail e >>= f = fail e := rfl

@[simp] theorem emit_bind (o : O) (p : Program Answer E O A) (f : A → Program Answer E O B) :
    emit o p >>= f = emit o (p >>= f) := rfl

@[simp] theorem call_bind (c : Call) (k : Except E (Answer c) → Program Answer E O A)
    (f : A → Program Answer E O B) : call c k >>= f = call c fun r => k r >>= f := rfl

@[simp] theorem onAnswer_ok (f : A → Program Answer E O B) (a : A) :
    onAnswer f (.ok a) = f a := rfl

@[simp] theorem onAnswer_error (f : A → Program Answer E O B) (e : E) :
    onAnswer f (.error e) = fail e := rfl

@[simp] theorem await_bind (c : Call) (f : Answer c → Program Answer E O B) :
    await c >>= f = call c (onAnswer f) := by
  show call c _ = call c _
  congr 1
  funext r
  cases r <;> rfl

@[simp] theorem send_bind (o : O) (f : Unit → Program Answer E O B) :
    send o >>= f = emit o (f ()) := rfl

@[simp] theorem attempt_done (a : A) :
    (done a : Program Answer E O A).attempt = done (.ok a) := rfl

@[simp] theorem attempt_fail (e : E) :
    (fail e : Program Answer E O A).attempt = done (.error e) := rfl

@[simp] theorem attempt_call (c : Call) (k : Except E (Answer c) → Program Answer E O A) :
    (call c k).attempt = call c fun r => (k r).attempt := rfl

@[simp] theorem attempt_onAnswer_done (r : Except E A) :
    (onAnswer done r : Program Answer E O A).attempt = done r := by
  cases r <;> rfl

/-! ## Runs without interference -/

/-- How a run ended, what it emitted, and the state it left. -/
structure Outcome (E O A S : Type) where
  result : Except E A
  sent : List O
  state : S

/-- The program run from the state `s` without interference: every call is answered in the state
that it leaves. -/
def exec (V : Service Answer E S) : Program Answer E O A → S → Outcome E O A S
  | done a, s => ⟨.ok a, [], s⟩
  | fail e, s => ⟨.error e, [], s⟩
  | emit o p, s => { exec V p s with sent := o :: (exec V p s).sent }
  | call c k, s => exec V (k (V.view c (V.perform c s).1 (V.perform c s).2)) (V.perform c s).2

/-- The calls that the run from `s` makes, each with its answer or rejection. -/
def journal (V : Service Answer E S) :
    Program Answer E O A → S → List (Σ c : Call, Except E (Answer c))
  | done _, _ => []
  | fail _, _ => []
  | emit _ p, s => journal V p s
  | call c k, s =>
    ⟨c, V.view c (V.perform c s).1 (V.perform c s).2⟩ ::
      journal V (k (V.view c (V.perform c s).1 (V.perform c s).2)) (V.perform c s).2

section Exec

variable (V : Service Answer E S)

@[simp] theorem exec_done (a : A) (s : S) :
    exec V (done a : Program Answer E O A) s = ⟨.ok a, [], s⟩ := rfl

@[simp] theorem exec_fail (e : E) (s : S) :
    exec V (fail e : Program Answer E O A) s = ⟨.error e, [], s⟩ := rfl

@[simp] theorem exec_emit (o : O) (p : Program Answer E O A) (s : S) :
    exec V (emit o p) s = { exec V p s with sent := o :: (exec V p s).sent } := rfl

@[simp] theorem exec_send (o : O) (s : S) :
    exec V (send o : Program Answer E O Unit) s = ⟨.ok (), [o], s⟩ := rfl

@[simp] theorem exec_call (c : Call) (k : Except E (Answer c) → Program Answer E O A) (s : S) :
    exec V (call c k) s =
      exec V (k (V.view c (V.perform c s).1 (V.perform c s).2)) (V.perform c s).2 := rfl

@[simp] theorem journal_done (a : A) (s : S) :
    journal V (done a : Program Answer E O A) s = [] := rfl

@[simp] theorem journal_fail (e : E) (s : S) :
    journal V (fail e : Program Answer E O A) s = [] := rfl

@[simp] theorem journal_emit (o : O) (p : Program Answer E O A) (s : S) :
    journal V (emit o p) s = journal V p s := rfl

@[simp] theorem journal_send (o : O) (s : S) :
    journal V (send o : Program Answer E O Unit) s = [] := rfl

@[simp] theorem journal_call (c : Call) (k : Except E (Answer c) → Program Answer E O A) (s : S) :
    journal V (call c k) s =
      ⟨c, V.view c (V.perform c s).1 (V.perform c s).2⟩ ::
        journal V (k (V.view c (V.perform c s).1 (V.perform c s).2)) (V.perform c s).2 := rfl

end Exec

/-- A run changes the state by what its calls do. -/
theorem exec_rel {V : Service Answer E S} {R : S → S → Prop} (hrefl : ∀ s, R s s)
    (htrans : ∀ s s' s'', R s s' → R s' s'' → R s s'')
    (hperform : ∀ c s, R s (V.perform c s).2) (p : Program Answer E O A) (s : S) :
    R s (p.exec V s).state := by
  induction p generalizing s with
  | done a => exact hrefl s
  | fail e => exact hrefl s
  | emit o p ih => exact ih s
  | call c k ih => exact htrans _ _ _ (hperform c s) (ih _ _)

/-! ## Programs that keep to some calls and outputs -/

/-- Every call that the program may make satisfies `C`, and every output `D`, whatever answers it
gets. -/
def Within (C : Call → Prop) (D : O → Prop) : Program Answer E O A → Prop
  | done _ => True
  | fail _ => True
  | emit o p => D o ∧ p.Within C D
  | call c k => C c ∧ ∀ r, (k r).Within C D

section Within

variable {C : Call → Prop} {D : O → Prop}

theorem within_send {o : O} (h : D o) :
    (send o : Program Answer E O Unit).Within C D := ⟨h, trivial⟩

/-- An awaited call, and what follows its answer. -/
theorem within_await {c : Call} (hc : C c) {f : Answer c → Program Answer E O A}
    (hf : ∀ a, (f a).Within C D) : (await c >>= f).Within C D := by
  rw [await_bind]
  refine ⟨hc, fun r => ?_⟩
  cases r with
  | error e => exact trivial
  | ok a => exact hf a

theorem Within.mono {C' : Call → Prop} {D' : O → Prop} (hC : ∀ c, C c → C' c)
    (hD : ∀ o, D o → D' o) {p : Program Answer E O A} (h : p.Within C D) : p.Within C' D' := by
  induction p with
  | done a => exact trivial
  | fail e => exact trivial
  | emit o p ih => exact ⟨hD o h.1, ih h.2⟩
  | call c k ih => exact ⟨hC c h.1, fun r => ih r (h.2 r)⟩

/-- Every program keeps to some calls and outputs. -/
theorem within_true (p : Program Answer E O A) : p.Within (fun _ => True) fun _ => True := by
  induction p with
  | done a => exact trivial
  | fail e => exact trivial
  | emit o p ih => exact ⟨trivial, ih⟩
  | call c k ih => exact ⟨trivial, ih⟩

/-- A run keeps what the calls of its program keep. -/
theorem Within.exec_state {p : Program Answer E O A} (h : p.Within C D) {V : Service Answer E S}
    {X : Type} {f : S → X} (hf : ∀ c s, C c → f (V.perform c s).2 = f s) (s : S) :
    f (p.exec V s).state = f s := by
  induction p generalizing s with
  | done a => rfl
  | fail e => rfl
  | emit o p ih => exact ih h.2 s
  | call c k ih => exact (ih _ (h.2 _) _).trans (hf c s h.1)

/-- What such a program emits. -/
theorem Within.exec_sent {p : Program Answer E O A} (h : p.Within C D) (V : Service Answer E S)
    (s : S) : ∀ o ∈ (p.exec V s).sent, D o := by
  induction p generalizing s with
  | done a => exact nofun
  | fail e => exact nofun
  | emit o p ih =>
    intro o' ho'
    rcases List.mem_cons.mp ho' with rfl | ho'
    · exact h.1
    · exact ih h.2 s o' ho'
  | call c k ih =>
    rw [exec_call]
    exact ih _ (h.2 _) _

end Within

/-! ## Programs that answer exactly once -/

section Answers

variable (bad : (Σ c : Call, Except E (Answer c)) → Prop)

/-- The program emits exactly one output before it ends, unless a call gets a bad answer: then it
fails at once. -/
def AnswersUnless : Program Answer E O A → Prop
  | done _ => False
  | fail _ => False
  | emit _ p => ∃ a, p = done a
  | call c k => ∀ r, (bad ⟨c, r⟩ → ∃ e, k r = fail e) ∧ (¬ bad ⟨c, r⟩ → AnswersUnless (k r))

variable {bad}

/-- A run emits one output when no answer in its journal is bad, and none otherwise. -/
theorem AnswersUnless.exec {p : Program Answer E O A} (h : p.AnswersUnless bad)
    (V : Service Answer E S) (s : S) :
    ((∀ e ∈ journal V p s, ¬ bad e) → (p.exec V s).sent.length = 1) ∧
      ((∃ e ∈ journal V p s, bad e) → (p.exec V s).sent = []) := by
  induction p generalizing s with
  | done a => exact h.elim
  | fail e => exact h.elim
  | emit o p ih =>
    obtain ⟨a, rfl⟩ := h
    simp
  | call c k ih =>
    rw [exec_call, journal_call]
    have hr := h (V.view c (V.perform c s).1 (V.perform c s).2)
    -- after a bad answer the program fails, and after any other it goes on
    by_cases hb : bad ⟨c, V.view c (V.perform c s).1 (V.perform c s).2⟩
    · obtain ⟨e, he⟩ := hr.1 hb
      rw [he]
      exact ⟨fun hclean => absurd hb (hclean _ (by simp)), fun _ => rfl⟩
    · obtain ⟨h₁, h₂⟩ := ih _ (hr.2 hb) (V.perform c s).2
      simp only [List.forall_mem_cons, List.exists_mem_cons_iff, hb, not_false_eq_true, true_and,
        false_or]
      exact ⟨h₁, h₂⟩

end Answers

/-! ## Programs that conclude with an output -/

section Concludes

variable (Q : List (Σ c : Call, Except E (Answer c)) → Option O → Prop)

/-- The program emits one output at most, as it ends, and `Q` holds of the calls made by then, the
earlier ones `past` included, and of what it emits. -/
def Concludes : List (Σ c : Call, Except E (Answer c)) → Program Answer E O A → Prop
  | past, done _ => Q past none
  | past, fail _ => Q past none
  | past, emit o p => Q past (some o) ∧ ∃ a, p = done a
  | past, call c k => ∀ r, Concludes (past ++ [⟨c, r⟩]) (k r)

variable {Q}

theorem concludes_send {past : List (Σ c : Call, Except E (Answer c))} {o : O}
    (h : Q past (some o)) : (send o : Program Answer E O Unit).Concludes Q past := ⟨h, (), rfl⟩

/-- An awaited call: its rejection ends the program, and its answer is continued with. -/
theorem concludes_await {past : List (Σ c : Call, Except E (Answer c))} {c : Call}
    {f : Answer c → Program Answer E O A} (herror : ∀ e, Q (past ++ [⟨c, .error e⟩]) none)
    (hok : ∀ a, (f a).Concludes Q (past ++ [⟨c, .ok a⟩])) :
    (await c >>= f).Concludes Q past := by
  rw [await_bind]
  intro r
  cases r with
  | error e => exact herror e
  | ok a => exact hok a

/-- A run emits one output at most, and `Q` holds of its journal and of the output. -/
theorem Concludes.exec {p : Program Answer E O A}
    {past : List (Σ c : Call, Except E (Answer c))} (h : p.Concludes Q past)
    (V : Service Answer E S) (s : S) :
    ∃ o : Option O, (p.exec V s).sent = o.toList ∧ Q (past ++ journal V p s) o := by
  induction p generalizing past s with
  | done a => exact ⟨none, rfl, (List.append_nil past).symm ▸ h⟩
  | fail e => exact ⟨none, rfl, (List.append_nil past).symm ▸ h⟩
  | emit o p ih =>
    obtain ⟨hQ, a, rfl⟩ := h
    exact ⟨some o, rfl, by simpa using hQ⟩
  | call c k ih =>
    obtain ⟨o, hsent, hQ⟩ :=
      ih _ (h (V.view c (V.perform c s).1 (V.perform c s).2)) (V.perform c s).2
    refine ⟨o, hsent, ?_⟩
    rw [journal_call]
    simpa using hQ

end Concludes

end Program

end Process
