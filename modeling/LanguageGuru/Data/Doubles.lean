import Mathlib.Algebra.BigOperators.Ring.Finset
import Mathlib.Data.Rat.Floor
import Mathlib.Tactic.Linarith
import Mathlib.Tactic.Positivity

/-!
# Sums of doubles

Numbers are doubles where a program runs: a sum or a quotient is the double that is nearest to the
exact one. Doubles are given as rational numbers here, which leaves out the overflow to infinity.
Rounding makes a sum depend on the order of its terms. Whole numbers are added exactly, though, and
their mean is rounded to the same whole number as the exact mean.

## Main definitions

* `Arithmetic`: how two numbers are added and divided, `Arithmetic.exact` or `Arithmetic.double`
* `Arithmetic.toDouble`: the nearest double, the even one of two that are equally near
* `Arithmetic.sum`: the sum of a list, from the left
* `Arithmetic.Whole`: lists of whole numbers

## Main results

* `Arithmetic.toDouble_dyadic`: small numerators over powers of two are doubles
* `Arithmetic.Whole.sum_double`: whole numbers are added exactly
* `Arithmetic.Whole.floor_mean_double`: the mean of whole numbers is rounded like the exact mean
-/

/-- How two numbers are added and divided. -/
structure Arithmetic where
  add : ℚ → ℚ → ℚ
  div : ℚ → ℚ → ℚ

namespace Arithmetic

/-! ## Rounding to doubles -/

/-- The nearest whole number, the even one of two that are equally near. -/
def roundHalfEven (q : ℚ) : ℤ :=
  if q - ⌊q⌋ < 1 / 2 then ⌊q⌋
  else if 1 / 2 < q - ⌊q⌋ then ⌊q⌋ + 1
  else if ⌊q⌋ % 2 = 0 then ⌊q⌋ else ⌊q⌋ + 1

/-- The exponent of the greatest power of two up to `|q|`. -/
def binaryExponent (q : ℚ) : ℤ :=
  let e : ℤ := q.num.natAbs.log2 - q.den.log2
  if (2 : ℚ) ^ e ≤ |q| then e else e - 1

/-- The distance of the doubles at `q`: they have 53 binary digits, and none below `2 ^ -1074`. -/
def ulp (q : ℚ) : ℚ := 2 ^ max (binaryExponent q - 52) (-1074)

/-- The double that is nearest to `q`. -/
def toDouble (q : ℚ) : ℚ := roundHalfEven (q / ulp q) * ulp q

/-! ## Rounding -/

@[simp] theorem roundHalfEven_intCast (n : ℤ) : roundHalfEven n = n := by
  simp [roundHalfEven]

theorem abs_roundHalfEven_sub_le (q : ℚ) : |roundHalfEven q - q| ≤ 1 / 2 := by
  have hfloor := Int.floor_le q
  have hlt := Int.lt_floor_add_one q
  unfold roundHalfEven
  rw [abs_le]
  split_ifs <;> push_cast <;> constructor <;> linarith

theorem two_zpow_binaryExponent_le {q : ℚ} (hq : 0 < q) : (2 : ℚ) ^ binaryExponent q ≤ q := by
  unfold binaryExponent
  dsimp only
  split_ifs with hle
  · rwa [abs_of_pos hq] at hle
  · -- the numerator has as many digits as its logarithm says, and the denominator no more
    have hpos : 0 < q.num := Rat.num_pos.mpr hq
    have hn : ((2 ^ q.num.natAbs.log2 : ℕ) : ℚ) ≤ q.num := by
      have hlog : 2 ^ q.num.natAbs.log2 ≤ q.num.natAbs := Nat.log2_self_le (by omega)
      have hcast : ((2 ^ q.num.natAbs.log2 : ℕ) : ℤ) ≤ q.num := by omega
      exact_mod_cast hcast
    have hd : (q.den : ℚ) ≤ ((2 ^ (q.den.log2 + 1) : ℕ) : ℚ) := by
      exact_mod_cast Nat.lt_log2_self.le
    have hden : (0 : ℚ) < q.den := by exact_mod_cast q.den_pos
    have hsplit : (2 : ℚ) ^ ((q.num.natAbs.log2 : ℤ) - q.den.log2 - 1) =
        2 ^ q.num.natAbs.log2 / 2 ^ (q.den.log2 + 1) := by
      rw [sub_sub, zpow_sub₀ two_ne_zero, zpow_natCast]
      congr 1
    push_cast at hn hd
    calc (2 : ℚ) ^ ((q.num.natAbs.log2 : ℤ) - q.den.log2 - 1)
        = 2 ^ q.num.natAbs.log2 / 2 ^ (q.den.log2 + 1) := hsplit
      _ ≤ q.num / q.den := by
          rw [div_le_div_iff₀ (by positivity) hden]
          exact mul_le_mul hn hd hden.le (by exact_mod_cast hpos.le)
      _ = q := Rat.num_div_den q

theorem ulp_pos (q : ℚ) : 0 < ulp q := zpow_pos two_pos _

/-- The doubles are the same on both sides of zero. -/
theorem ulp_neg (q : ℚ) : ulp (-q) = ulp q := by
  simp [ulp, binaryExponent]

theorem roundHalfEven_neg (q : ℚ) : roundHalfEven (-q) = -roundHalfEven q := by
  obtain ⟨f, hf⟩ : ∃ f, ⌊q⌋ = f := ⟨_, rfl⟩
  obtain ⟨hle, hlt⟩ := Int.floor_eq_iff.mp hf
  rcases hle.eq_or_lt with heq | hless
  · rw [← heq, ← Int.cast_neg, roundHalfEven_intCast, roundHalfEven_intCast]
  · -- the floor of the negative is on the other side, and the fractions add up to one
    have hneg : ⌊-q⌋ = -f - 1 := by
      rw [Int.floor_eq_iff]
      push_cast
      constructor <;> linarith
    unfold roundHalfEven
    rw [hf, hneg]
    push_cast
    split_ifs <;> first | omega | (exfalso; linarith)

theorem toDouble_neg (q : ℚ) : toDouble (-q) = -toDouble q := by
  rw [toDouble, ulp_neg, neg_div, roundHalfEven_neg, Int.cast_neg, neg_mul, toDouble]

@[simp] theorem toDouble_zero : toDouble 0 = 0 := by
  have hround : roundHalfEven 0 = 0 := by exact_mod_cast roundHalfEven_intCast 0
  rw [toDouble, zero_div, hround, Int.cast_zero, zero_mul]

/-- A fraction with a small numerator and a power of two below is a double. -/
theorem toDouble_dyadic {m j : ℕ} (hm : m < 2 ^ 53) (hj : j ≤ 1074) :
    toDouble ((m : ℚ) / 2 ^ j) = m / 2 ^ j := by
  rcases Nat.eq_zero_or_pos m with rfl | hpos
  · simp
  have hexp : binaryExponent ((m : ℚ) / 2 ^ j) < 53 - j := by
    have hle := two_zpow_binaryExponent_le (q := (m : ℚ) / 2 ^ j) (by positivity)
    have hlt : (m : ℚ) / 2 ^ j < 2 ^ (53 - (j : ℤ)) := by
      rw [zpow_sub₀ two_ne_zero, zpow_natCast]
      exact div_lt_div_of_pos_right (by exact_mod_cast hm) (by positivity)
    exact (zpow_lt_zpow_iff_right₀ one_lt_two).mp (hle.trans_lt hlt)
  -- the distance of the doubles divides the last digit
  obtain ⟨i, hi⟩ : ∃ i : ℕ, max (binaryExponent ((m : ℚ) / 2 ^ j) - 52) (-1074) = -(j : ℤ) - i :=
    ⟨(-(j : ℤ) - max (binaryExponent ((m : ℚ) / 2 ^ j) - 52) (-1074)).toNat, by omega⟩
  have hquotient : (m : ℚ) / 2 ^ j / ulp ((m : ℚ) / 2 ^ j) = ((m * 2 ^ i : ℤ) : ℚ) := by
    rw [ulp, hi, zpow_sub₀ two_ne_zero, zpow_neg, zpow_natCast, zpow_natCast]
    push_cast
    field_simp
  rw [toDouble, hquotient, roundHalfEven_intCast, ← hquotient, div_mul_cancel₀ _ (ulp_pos _).ne']

theorem toDouble_intCast {n : ℤ} (hn : n.natAbs < 2 ^ 53) : toDouble n = n := by
  have hnat : toDouble n.natAbs = n.natAbs := by
    simpa using toDouble_dyadic (j := 0) hn (by omega)
  rcases n.natAbs_eq with h | h
  · rw [h, Int.cast_natCast, hnat]
  · rw [h, Int.cast_neg, Int.cast_natCast, toDouble_neg, hnat]

theorem ulp_le {q : ℚ} (hq : (2 : ℚ) ^ (-1022 : ℤ) ≤ q) : ulp q ≤ q / 2 ^ 52 := by
  have hpos : 0 < q := (zpow_pos two_pos _).trans_le hq
  have hsplit : ∀ e : ℤ, (2 : ℚ) ^ (e - 52) = 2 ^ e / 2 ^ 52 := fun e => by
    rw [zpow_sub₀ two_ne_zero]
    norm_num
  rw [ulp]
  rcases max_choice (binaryExponent q - 52) (-1074) with hmax | hmax
  · rw [hmax, hsplit]
    exact div_le_div_of_nonneg_right (two_zpow_binaryExponent_le hpos) (by positivity)
  · rw [hmax, show (-1074 : ℤ) = -1022 - 52 by norm_num, hsplit]
    exact div_le_div_of_nonneg_right hq (by positivity)

theorem abs_toDouble_sub_le {q : ℚ} (hq : (2 : ℚ) ^ (-1022 : ℤ) ≤ q) :
    |toDouble q - q| ≤ q / 2 ^ 53 := by
  have hround := abs_roundHalfEven_sub_le (q / ulp q)
  have herror : toDouble q - q = (roundHalfEven (q / ulp q) - q / ulp q) * ulp q := by
    rw [sub_mul, div_mul_cancel₀ _ (ulp_pos q).ne', toDouble]
  calc |toDouble q - q| = |roundHalfEven (q / ulp q) - q / ulp q| * ulp q := by
        rw [herror, abs_mul, abs_of_pos (ulp_pos q)]
    _ ≤ 1 / 2 * (q / 2 ^ 52) :=
        mul_le_mul hround (ulp_le hq) (ulp_pos q).le (by norm_num)
    _ = q / 2 ^ 53 := by ring

section Quotients

variable {s : ℤ} {n : ℕ}

/-- The error of a quotient of whole numbers is smaller than its distance from any other half of a
whole number. -/
theorem abs_toDouble_div_sub_lt (hzero : s ≠ 0) (hs : s.natAbs < 2 ^ 52) (hn : 0 < n)
    (hlarge : n < 2 ^ 53) :
    |toDouble ((s : ℚ) / n) - s / n| < 1 / (2 * n) := by
  have hn' : (0 : ℚ) < n := by exact_mod_cast hn
  have hs' : (s.natAbs : ℚ) < 2 ^ 52 := by exact_mod_cast hs
  have hpos : (1 : ℚ) ≤ s.natAbs := by
    have : 1 ≤ s.natAbs := by omega
    exact_mod_cast this
  have hlarge' : (n : ℚ) ≤ 2 ^ 53 := by exact_mod_cast hlarge.le
  have hnormal : (2 : ℚ) ^ (-1022 : ℤ) ≤ (s.natAbs : ℚ) / n := by
    calc (2 : ℚ) ^ (-1022 : ℤ) ≤ 2 ^ (-53 : ℤ) := zpow_le_zpow_right₀ one_le_two (by norm_num)
      _ = 1 / 2 ^ 53 := by norm_num
      _ ≤ 1 / n := one_div_le_one_div_of_le hn' hlarge'
      _ ≤ s.natAbs / n := div_le_div_of_nonneg_right hpos hn'.le
  have hnat : |toDouble ((s.natAbs : ℚ) / n) - s.natAbs / n| < 1 / (2 * n) := by
    calc |toDouble ((s.natAbs : ℚ) / n) - s.natAbs / n| ≤ s.natAbs / n / 2 ^ 53 :=
          abs_toDouble_sub_le hnormal
      _ < 2 ^ 52 / n / 2 ^ 53 := by gcongr
      _ = 1 / (2 * n) := by field_simp
  -- the error is the same for the negative quotient
  rcases s.natAbs_eq with h | h
  · rwa [h, Int.cast_natCast]
  · rwa [h, Int.cast_neg, Int.cast_natCast, neg_div, toDouble_neg, ← neg_sub', abs_neg]

/-- A quotient that is half a whole number is a double. -/
theorem toDouble_half (hs : s.natAbs < 2 ^ 52) (hn : 0 < n) {k : ℤ}
    (hk : k * (2 * n) = 2 * s + n) : toDouble ((s : ℚ) / n) = s / n := by
  have hn' : (0 : ℚ) < n := by exact_mod_cast hn
  have hprod : n * (2 * k - 1) = 2 * s := by linarith
  have hsmall : (2 * k - 1).natAbs < 2 ^ 53 := by
    have hnat : n * (2 * k - 1).natAbs = 2 * s.natAbs := by
      have := congrArg Int.natAbs hprod
      simpa [Int.natAbs_mul] using this
    have := Nat.le_mul_of_pos_left (2 * k - 1).natAbs hn
    omega
  have hhalf : (s : ℚ) / n = ((2 * k - 1 : ℤ) : ℚ) / 2 := by
    have hcast : (n : ℚ) * ((2 * k - 1 : ℤ) : ℚ) = 2 * s := by exact_mod_cast hprod
    rw [div_eq_div_iff hn'.ne' two_ne_zero]
    linarith
  have hdouble : toDouble ((2 * k - 1).natAbs / 2) = (2 * k - 1).natAbs / 2 := by
    simpa using toDouble_dyadic (j := 1) hsmall (by omega)
  rw [hhalf]
  rcases (2 * k - 1).natAbs_eq with h | h
  · rw [h, Int.cast_natCast, hdouble]
  · rw [h, Int.cast_neg, Int.cast_natCast, neg_div, toDouble_neg, hdouble]

/-- A quotient of whole numbers is rounded to a whole number like the exact one. -/
theorem floor_toDouble_div_add_half (hs : s.natAbs < 2 ^ 52) (hlarge : n < 2 ^ 53) :
    ⌊toDouble ((s : ℚ) / n) + 1 / 2⌋ = ⌊(s : ℚ) / n + 1 / 2⌋ := by
  by_cases hzero : s = 0
  · simp [hzero]
  rcases Nat.eq_zero_or_pos n with rfl | hn
  · simp
  have hn' : (0 : ℚ) < n := by exact_mod_cast hn
  obtain ⟨hlow, hhigh⟩ := abs_lt.mp (abs_toDouble_div_sub_lt hzero hs hn hlarge)
  have hstep : (s : ℚ) / n + 1 / 2 = ((2 * s + n : ℤ) : ℚ) / (2 * n) := by
    push_cast
    field_simp
  obtain ⟨k, hk⟩ : ∃ k, ⌊(s : ℚ) / n + 1 / 2⌋ = k := ⟨_, rfl⟩
  obtain ⟨hle, hlt⟩ := Int.floor_eq_iff.mp hk
  rw [hstep, le_div_iff₀ (by positivity)] at hle
  rw [hstep, div_lt_iff₀ (by positivity)] at hlt
  have hle' : k * (2 * n) ≤ 2 * s + n := by exact_mod_cast hle
  have hlt' : 2 * s + n < (k + 1) * (2 * n) := by exact_mod_cast hlt
  rw [hk, Int.floor_eq_iff]
  constructor
  · rcases hle'.eq_or_lt with hhalf | hless
    · rw [toDouble_half hs hn hhalf, hstep, le_div_iff₀ (by positivity)]
      exact hle
    · have hmore : ((k * (2 * n) + 1 : ℤ) : ℚ) ≤ ((2 * s + n : ℤ) : ℚ) := by exact_mod_cast hless
      have hfar : (k : ℚ) + 1 / (2 * n) ≤ s / n + 1 / 2 := by
        rw [hstep, le_div_iff₀ (by positivity)]
        push_cast at hmore ⊢
        field_simp
        linarith
      linarith
  · have hmore : ((2 * s + n + 1 : ℤ) : ℚ) ≤ (((k + 1) * (2 * n) : ℤ) : ℚ) := by
      exact_mod_cast hlt'
    have hfar : (s : ℚ) / n + 1 / 2 + 1 / (2 * n) ≤ k + 1 := by
      rw [hstep, ← add_div, div_le_iff₀ (by positivity)]
      push_cast at hmore ⊢
      linarith
    linarith

end Quotients

/-! ## Sums -/

/-- Nothing is rounded. -/
def exact : Arithmetic := ⟨fun a b => a + b, fun a b => a / b⟩

/-- The results are rounded to doubles. -/
def double : Arithmetic := ⟨fun a b => toDouble (a + b), fun a b => toDouble (a / b)⟩

variable (A : Arithmetic)

/-- The sum of a list, from the left. -/
def sum (xs : List ℚ) : ℚ := xs.foldl A.add 0

@[simp] theorem sum_nil : A.sum [] = 0 := rfl

@[simp] theorem sum_snoc (xs : List ℚ) (x : ℚ) : A.sum (xs ++ [x]) = A.add (A.sum xs) x := by
  simp [sum]

@[simp] theorem sum_singleton (x : ℚ) : A.sum [x] = A.add 0 x := rfl

theorem sum_exact (xs : List ℚ) : exact.sum xs = xs.sum := by
  induction xs using List.reverseRecOn with
  | nil => rfl
  | append_singleton xs x ih =>
    rw [sum_snoc, ih, List.sum_append, List.sum_singleton]
    rfl

theorem natAbs_sum_le (ns : List ℤ) : ns.sum.natAbs ≤ (ns.map Int.natAbs).sum := by
  induction ns with
  | nil => exact le_refl 0
  | cons n ns ih =>
    rw [List.sum_cons, List.map_cons, List.sum_cons]
    exact (Int.natAbs_add_le n ns.sum).trans (Nat.add_le_add_left ih _)

/-- Whole numbers are added exactly. -/
theorem sum_double_intCast {ns : List ℤ} (h : (ns.map Int.natAbs).sum < 2 ^ 53) :
    double.sum (ns.map (Int.cast : ℤ → ℚ)) = (ns.sum : ℤ) := by
  induction ns using List.reverseRecOn with
  | nil => rfl
  | append_singleton ns n ih =>
    have hsmall := (natAbs_sum_le (ns ++ [n])).trans_lt h
    rw [List.map_append, List.sum_append, List.map_singleton, List.sum_singleton] at h
    rw [List.sum_append, List.sum_singleton] at hsmall ⊢
    rw [List.map_append, List.map_singleton, sum_snoc, ih (by omega)]
    show toDouble (_ + _) = _
    rw [← Int.cast_add, toDouble_intCast hsmall]

/-- Whole numbers of at most `b` on both sides of zero. -/
def Whole (b : ℕ) (xs : List ℚ) : Prop := ∀ x ∈ xs, ∃ n : ℤ, n.natAbs ≤ b ∧ x = n

variable {b : ℕ} {xs : List ℚ}

theorem Whole.exists_intCast (h : Whole b xs) :
    ∃ ns : List ℤ, xs = ns.map (Int.cast : ℤ → ℚ) ∧
      (ns.map Int.natAbs).sum ≤ b * xs.length := by
  induction xs with
  | nil => exact ⟨[], rfl, Nat.zero_le _⟩
  | cons x xs ih =>
    obtain ⟨ns, rfl, hsum⟩ := ih fun y hy => h y (List.mem_cons_of_mem _ hy)
    obtain ⟨n, hn, rfl⟩ := h x List.mem_cons_self
    refine ⟨n :: ns, rfl, ?_⟩
    rw [List.map_cons, List.sum_cons, List.length_cons, Nat.mul_succ]
    omega

theorem Whole.sum_double (h : Whole b xs) (hsmall : b * xs.length < 2 ^ 52) :
    double.sum xs = exact.sum xs := by
  obtain ⟨ns, rfl, hsum⟩ := h.exists_intCast
  rw [sum_double_intCast (by omega), sum_exact]
  exact Int.cast_list_sum ns

/-- The mean of whole numbers is rounded like the exact mean. -/
theorem Whole.floor_mean_double (h : Whole b xs) (hsmall : b * xs.length < 2 ^ 52)
    (hlength : xs.length < 2 ^ 53) :
    ⌊double.div (double.sum xs) xs.length + 1 / 2⌋ =
      ⌊exact.div (exact.sum xs) xs.length + 1 / 2⌋ := by
  obtain ⟨ns, rfl, hsum⟩ := h.exists_intCast
  have htotal := (natAbs_sum_le ns).trans hsum
  rw [h.sum_double hsmall, sum_exact, ← Int.cast_list_sum]
  exact floor_toDouble_div_add_half (by omega) hlength

end Arithmetic
