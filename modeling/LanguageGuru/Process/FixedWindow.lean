import Mathlib.Algebra.Order.Group.Nat
import Mathlib.Data.List.Basic

/-!
# Fixed-window admission

Arrivals fall into classes, and an arrival is admitted when fewer than a limit of the earlier
arrivals belong to its class. A limiter keeps a counter for each class; the counter of a class that
no later arrival belongs to may hold anything.

## Main definitions

* `arrivals key as k`: the number of arrivals of the class `k`
* `admittedAfter key limit past as`: the arrivals of `as` that are admitted after `past`
* `Counts key live past table`: the counters of the live classes are exact

## Main results

* `arrivals_admitted`: of each class, the first `limit` arrivals are admitted and no others
* `countP_admitted_window_le`: when the classes are windows of a fixed width, at most twice the
  limit is admitted in any interval of that width
* `Counts.snoc`: what a step must do to keep the counters
-/

namespace Process.FixedWindow

variable {α κ : Type} [DecidableEq κ] (key : α → κ) (limit : ℕ)

/-- The number of arrivals of the class `k`. -/
def arrivals (as : List α) (k : κ) : ℕ := as.countP fun a => key a = k

/-- The arrivals of `as` that are admitted after `past`. -/
def admittedAfter : List α → List α → List α
  | _, [] => []
  | past, a :: as =>
    if arrivals key past (key a) < limit then a :: admittedAfter (past ++ [a]) as
    else admittedAfter (past ++ [a]) as

@[simp] theorem arrivals_nil (k : κ) : arrivals key [] k = 0 := rfl

theorem arrivals_snoc (as : List α) (a : α) (k : κ) :
    arrivals key (as ++ [a]) k = arrivals key as k + if key a = k then 1 else 0 := by
  simp [arrivals, List.countP_append, List.countP_cons]

theorem arrivals_cons (a : α) (as : List α) (k : κ) :
    arrivals key (a :: as) k = arrivals key as k + if key a = k then 1 else 0 := by
  simp [arrivals, List.countP_cons]

variable {key limit}

/-- After `past`, a class is admitted up to what `past` left of its limit. -/
theorem arrivals_admittedAfter (past as : List α) (k : κ) :
    arrivals key (admittedAfter key limit past as) k =
      min (arrivals key as k) (limit - arrivals key past k) := by
  induction as generalizing past with
  | nil => simp [admittedAfter]
  | cons a as ih =>
    rw [admittedAfter, arrivals_cons]
    split_ifs with hlimit hk hk
    -- admitted: the class of `a` has one arrival less left
    · subst hk
      rw [arrivals_cons, if_pos rfl, ih, arrivals_snoc, if_pos rfl]
      omega
    · rw [arrivals_cons, if_neg hk, ih, arrivals_snoc, if_neg hk]
      omega
    -- rejected: nothing is left for the class of `a`
    · subst hk
      rw [ih, arrivals_snoc, if_pos rfl]
      omega
    · rw [ih, arrivals_snoc, if_neg hk]
      omega

/-- **Of each class the first `limit` arrivals are admitted, and no others.** -/
theorem arrivals_admitted (as : List α) (k : κ) :
    arrivals key (admittedAfter key limit [] as) k = min (arrivals key as k) limit := by
  rw [arrivals_admittedAfter, arrivals_nil, Nat.sub_zero]

theorem arrivals_admitted_le (as : List α) (k : κ) :
    arrivals key (admittedAfter key limit [] as) k ≤ limit :=
  (arrivals_admitted as k).trans_le (min_le_right _ _)

/-! ## Windows -/

section Windows

variable {σ : Type} [DecidableEq σ] {source : α → σ} {time : α → ℕ} {width : ℕ}

/-- An interval of the width of a window meets two windows at most. -/
theorem window_of_mem_interval (hwidth : 0 < width) {t u : ℕ} (ht : t ≤ u) (hu : u ≤ t + width) :
    u / width = t / width ∨ u / width = t / width + 1 := by
  have hle : t / width ≤ u / width := Nat.div_le_div_right ht
  have hlt : u / width ≤ (t + width) / width := Nat.div_le_div_right hu
  rw [Nat.add_div_right t hwidth] at hlt
  omega

/-- **At most twice the limit is admitted from one source in an interval of the width of a
window.** -/
theorem countP_admitted_window_le (hwidth : 0 < width) (as : List α) (s : σ) (t : ℕ) :
    ((admittedAfter (fun a => (source a, time a / width)) limit [] as).countP fun a =>
      source a = s ∧ t ≤ time a ∧ time a ≤ t + width) ≤ 2 * limit := by
  generalize hadmitted :
    admittedAfter (fun a => (source a, time a / width)) limit [] as = admitted
  have hclass : ∀ w, (admitted.countP fun a => (source a, time a / width) = (s, w)) ≤ limit := by
    intro w
    have h : arrivals (fun a => (source a, time a / width)) admitted (s, w) ≤ limit := by
      rw [← hadmitted]
      exact arrivals_admitted_le as (s, w)
    exact h
  have hsplit : ∀ as : List α, (as.countP fun a => source a = s ∧ t ≤ time a ∧ time a ≤ t + width) ≤
      (as.countP fun a => (source a, time a / width) = (s, t / width)) +
        as.countP fun a => (source a, time a / width) = (s, t / width + 1) := by
    intro as
    induction as with
    | nil => simp
    | cons a as ih =>
      simp only [List.countP_cons, Prod.mk.injEq, decide_eq_true_eq] at ih ⊢
      by_cases ha : source a = s ∧ t ≤ time a ∧ time a ≤ t + width
      · have hw := window_of_mem_interval hwidth ha.2.1 ha.2.2
        simp only [ha, true_and]
        rcases hw with hw | hw
        all_goals simp only [hw, if_true]; omega
      · rw [if_neg ha]
        omega
  have h := hsplit admitted
  have h₀ := hclass (t / width)
  have h₁ := hclass (t / width + 1)
  omega

end Windows

/-! ## Counters -/

variable (key) in
/-- The counters of the live classes are exact. -/
def Counts (live : κ → Prop) (past : List α) (table : κ → ℕ) : Prop :=
  ∀ k, live k → table k = arrivals key past k

/-- A step that counts an arrival in its class and keeps the counters of the classes that stay
live keeps the counters exact. -/
theorem Counts.snoc {live live' : κ → Prop} {past : List α} {table table' : κ → ℕ} {a : α}
    (h : Counts key live past table) (hlive : ∀ k, live' k → live k)
    (hstep : ∀ k, live' k → table' k = table k + if key a = k then 1 else 0) :
    Counts key live' (past ++ [a]) table' := by
  intro k hk
  rw [hstep k hk, h k (hlive k hk), arrivals_snoc]

end Process.FixedWindow
