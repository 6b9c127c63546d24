import Mathlib.Data.List.Infix

/-!
# Runs of a transition system

A transition system is a total step function on states; a run is the list of its actions. An
invariant that every step preserves holds after every run. An invariant that only the steps
meeting a condition preserve holds after every run whose steps all meet it, and when the
condition is exact for a step it is exact for runs.

## Main definitions

* `run step s as`: the state after the actions `as`
* `StepsMeet step C s as`: every action of the run meets `C` in the state it is taken in

## Main results

* `run_invariant`, `run_rel`, `run_invariant_of_stepsMeet`: the induction rules
* `stepsMeet_congr`, `stepsMeet_map`: conditions of runs rewritten
* `run_filter_unwinding`: a run and the run without the actions that a relation does not see
* `forall_prefix_iff_stepsMeet`, `forall_prefix_iff_stepsMeet_of_invariant`: for an exact condition,
  a property holds in every state of a run if and only if every step meets the condition
-/

namespace Process

variable {σ α : Type} (step : σ → α → σ)

/-- The state after the actions `as`, taken in order from `s`. -/
def run (s : σ) (as : List α) : σ := as.foldl step s

/-- Every action of the run meets `C` in the state in which it is taken. -/
def StepsMeet (C : σ → α → Prop) : σ → List α → Prop
  | _, [] => True
  | s, a :: as => C s a ∧ StepsMeet C (step s a) as

instance stepsMeetDecidable {step : σ → α → σ} {C : σ → α → Prop} [∀ s a, Decidable (C s a)] :
    ∀ s as, Decidable (StepsMeet step C s as)
  | _, [] => isTrue trivial
  | s, a :: as =>
    have : Decidable (StepsMeet step C (step s a) as) := stepsMeetDecidable _ _
    inferInstanceAs (Decidable (C s a ∧ StepsMeet step C (step s a) as))

@[simp] theorem run_nil (s : σ) : run step s [] = s := rfl

@[simp] theorem run_cons (s : σ) (a : α) (as : List α) :
    run step s (a :: as) = run step (step s a) as := rfl

theorem run_append (s : σ) (as bs : List α) :
    run step s (as ++ bs) = run step (run step s as) bs := by
  simp only [run, List.foldl_append]

theorem run_snoc (s : σ) (as : List α) (a : α) :
    run step s (as ++ [a]) = step (run step s as) a := run_append step s as [a]

variable {step} {C : σ → α → Prop} {I : σ → Prop}

theorem stepsMeet_append {s : σ} {as bs : List α} :
    StepsMeet step C s (as ++ bs) ↔
      StepsMeet step C s as ∧ StepsMeet step C (run step s as) bs := by
  induction as generalizing s with
  | nil => simp [StepsMeet]
  | cons a as ih => simp [StepsMeet, ih, and_assoc]

theorem StepsMeet.of_prefix {s : σ} {as bs : List α} (h : StepsMeet step C s bs)
    (hp : as <+: bs) : StepsMeet step C s as := by
  obtain ⟨cs, rfl⟩ := hp
  exact (stepsMeet_append.mp h).1

/-- The condition, read along the prefixes of the run. -/
theorem stepsMeet_of_forall_prefix {s : σ} {as : List α}
    (h : ∀ bs a, bs ++ [a] <+: as → C (run step s bs) a) : StepsMeet step C s as := by
  induction as generalizing s with
  | nil => exact trivial
  | cons a as ih =>
    refine ⟨h [] a (by simp), ih fun bs b hbs => ?_⟩
    exact h (a :: bs) b (List.cons_prefix_cons.mpr ⟨rfl, hbs⟩)

/-- An invariant that every step preserves holds after every run. -/
theorem run_invariant (hstep : ∀ s a, I s → I (step s a)) {s : σ} (hs : I s) (as : List α) :
    I (run step s as) := by
  induction as generalizing s with
  | nil => exact hs
  | cons a as ih => exact ih (hstep s a hs)

/-- An invariant that every step of the run preserves holds after the run. -/
theorem run_invariant_of_mem {s : σ} {as : List α} (hstep : ∀ s, ∀ a ∈ as, I s → I (step s a))
    (hs : I s) : I (run step s as) := by
  induction as generalizing s with
  | nil => exact hs
  | cons a as ih =>
    exact ih (fun s b hb => hstep s b (List.mem_cons_of_mem a hb)) (hstep s a List.mem_cons_self hs)

/-- A preorder that every step follows relates the start of a run to its end. -/
theorem run_rel {R : σ → σ → Prop} (hrefl : ∀ s, R s s)
    (htrans : ∀ {s s' s''}, R s s' → R s' s'' → R s s'') (hstep : ∀ s a, R s (step s a)) (s : σ)
    (as : List α) : R s (run step s as) := by
  induction as generalizing s with
  | nil => exact hrefl s
  | cons a as ih => exact htrans (hstep s a) (ih (step s a))

/-- An invariant that the steps meeting `C` preserve holds after every run of such steps. -/
theorem run_invariant_of_stepsMeet (hstep : ∀ s a, I s → C s a → I (step s a)) {s : σ}
    (hs : I s) {as : List α} (h : StepsMeet step C s as) : I (run step s as) := by
  induction as generalizing s with
  | nil => exact hs
  | cons a as ih => exact ih (hstep s a hs h.1) h.2

/-- **Unwinding.** Two runs stay related when one of them leaves the dropped actions out: a kept
action takes related states to related states, and a dropped one changes nothing that the relation
sees. The actions of the full run meet `C`. -/
theorem run_filter_unwinding {R : σ → σ → Prop} {keep : α → Bool}
    (hkept : ∀ s s' a, keep a = true → C s a → R s s' → R (step s a) (step s' a))
    (hdropped : ∀ s s' a, keep a = false → C s a → R s s' → R (step s a) s') {s s' : σ}
    (h : R s s') {as : List α} (hC : StepsMeet step C s as) :
    R (run step s as) (run step s' (as.filter keep)) := by
  -- both states vary: a dropped action moves only the first of them
  induction as generalizing s s' with
  | nil => exact h
  | cons a as ih =>
    cases hk : keep a with
    | true =>
      rw [List.filter_cons_of_pos hk]
      exact ih (hkept s s' a hk hC.1 h) hC.2
    | false =>
      rw [List.filter_cons_of_neg (by simp [hk])]
      exact ih (hdropped s s' a hk hC.1 h) hC.2

/-- Conditions that agree wherever an invariant holds agree along runs. -/
theorem stepsMeet_congr (hstep : ∀ s a, I s → I (step s a)) {D : σ → α → Prop}
    (hCD : ∀ s a, I s → (C s a ↔ D s a)) {s : σ} (hs : I s) {as : List α} :
    StepsMeet step C s as ↔ StepsMeet step D s as := by
  induction as generalizing s with
  | nil => exact Iff.rfl
  | cons a as ih => exact and_congr (hCD s a hs) (ih (hstep s a hs))

/-- A condition on what is seen of the states can be read off the run of what is seen. -/
theorem stepsMeet_map {τ : Type} {step' : τ → α → τ} {f : σ → τ} {D : τ → α → Prop}
    (hf : ∀ s a, f (step s a) = step' (f s) a) {s : σ} {as : List α} :
    StepsMeet step (fun s a => D (f s) a) s as ↔ StepsMeet step' D (f s) as := by
  induction as generalizing s with
  | nil => exact Iff.rfl
  | cons a as ih =>
    show _ ∧ _ ↔ _ ∧ _
    rw [ih, hf]

/-- A condition that keeps an invariant and is necessary for a property that the invariant gives is
exact for the property along runs: it holds in every state of the run if and only if every step
meets the condition. -/
theorem forall_prefix_iff_stepsMeet_of_invariant {J : σ → Prop} (hJ : ∀ s, I s → J s)
    (hstep : ∀ s a, I s → C s a → I (step s a)) (hnec : ∀ s a, I s → J (step s a) → C s a) {s : σ}
    (hs : I s) {as : List α} : (∀ bs, bs <+: as → J (run step s bs)) ↔ StepsMeet step C s as := by
  constructor
  · intro h
    induction as generalizing s with
    | nil => exact trivial
    | cons a as ih =>
      have ha : C s a := hnec s a hs (h [a] (by simp))
      refine ⟨ha, ih (hstep s a hs ha) fun bs hbs => ?_⟩
      exact h (a :: bs) (List.cons_prefix_cons.mpr ⟨rfl, hbs⟩)
  · intro h bs hbs
    exact hJ _ (run_invariant_of_stepsMeet hstep hs (h.of_prefix hbs))

/-- A condition that is exact for one step is exact for runs: the invariant holds in every state
of the run if and only if every step meets the condition. -/
theorem forall_prefix_iff_stepsMeet (hstep : ∀ s a, I s → (I (step s a) ↔ C s a)) {s : σ}
    (hs : I s) {as : List α} :
    (∀ bs, bs <+: as → I (run step s bs)) ↔ StepsMeet step C s as :=
  forall_prefix_iff_stepsMeet_of_invariant (fun _ h => h) (fun s a hI => (hstep s a hI).mpr)
    (fun s a hI => (hstep s a hI).mp) hs

end Process
