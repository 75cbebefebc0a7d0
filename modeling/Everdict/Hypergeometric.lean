import Mathlib.Algebra.BigOperators.Group.Finset.Basic
import Mathlib.Algebra.Order.BigOperators.Group.Finset
import Mathlib.Algebra.Order.Field.Rat
import Mathlib.Data.Nat.Choose.Cast
import Mathlib.Data.Nat.Choose.Central
import Mathlib.Tactic.FieldSimp
import Mathlib.Tactic.Positivity

/-!
# Hypergeometric weights

The weight of a table with fixed margins, and how small sums of weights can be between two arms
of one size: no sum that holds a table and its mirror is below twice the weight of the two arms
pulled apart (`floor_le_sum`).
-/

namespace Hypergeometric

open Finset Nat

/-- The weight of `a` successes in the first of two arms that have `k` together. -/
def weight (m n k a : ℕ) : ℚ := m.choose a * n.choose (k - a) / (m + n).choose k

theorem weight_nonneg (m n k a : ℕ) : 0 ≤ weight m n k a := by
  unfold weight
  positivity

theorem weight_eq_factorials {m n k a : ℕ} (first : a ≤ m) (inside : a ≤ k)
    (second : k - a ≤ n) :
    weight m n k a = (m ! * n ! * k ! * (m + n - k)! : ℚ) /
      ((m + n)! * a ! * (m - a)! * (k - a)! * (n - (k - a))!) := by
  rw [weight, cast_choose ℚ first, cast_choose ℚ second, cast_choose ℚ (by omega : k ≤ m + n)]
  have nonzero : ∀ j : ℕ, (j ! : ℚ) ≠ 0 := fun j => cast_ne_zero.mpr j.factorial_ne_zero
  have := nonzero a
  have := nonzero (m - a)
  have := nonzero (k - a)
  have := nonzero (n - (k - a))
  have := nonzero k
  have := nonzero (m + n - k)
  have := nonzero (m + n)
  field_simp

section EqualArms

variable {n b c : ℕ}

theorem weight_equal (n b c : ℕ) :
    weight n n (b + c) b = n.choose b * n.choose c / (2 * n).choose (b + c) := by
  rw [weight, Nat.add_sub_cancel_left, two_mul]

/-- A table and its mirror weigh the same. -/
theorem weight_mirror (n b c : ℕ) : weight n n (b + c) b = weight n n (b + c) c := by
  rw [weight_equal, Nat.add_comm b c, weight_equal, mul_comm (n.choose b : ℚ)]

theorem centralBinom_pos_rat (n : ℕ) : (0 : ℚ) < n.centralBinom := by
  exact_mod_cast n.centralBinom_pos

/-- A weight with at least `r` ways is not below `r` parts of the central number. -/
theorem div_central_le_weight {r : ℕ} (ways : r ≤ n.choose b * n.choose c) (some' : b + c ≤ 2 * n) :
    (r : ℚ) / n.centralBinom ≤ weight n n (b + c) b := by
  rw [weight_equal]
  have ways : (r : ℚ) ≤ n.choose b * n.choose c := by exact_mod_cast ways
  have central : ((2 * n).choose (b + c) : ℚ) ≤ n.centralBinom := by
    exact_mod_cast choose_le_centralBinom (b + c) n
  have positive : (0 : ℚ) < (2 * n).choose (b + c) := by exact_mod_cast choose_pos some'
  exact div_le_div₀ (by positivity) ways positive central

theorem two_le_choose {a : ℕ} (low : 0 < a) (high : a < n) : 2 ≤ n.choose a := by
  obtain ⟨j, rfl⟩ := exists_eq_succ_of_ne_zero low.ne'
  obtain ⟨m, rfl⟩ := exists_eq_succ_of_ne_zero (Nat.ne_of_gt (Nat.zero_lt_of_lt high))
  have first := choose_pos (by omega : j ≤ m)
  have second := choose_pos (by omega : j + 1 ≤ m)
  rw [succ_eq_add_one, succ_eq_add_one, choose_succ_succ']
  omega

/-- No sum that holds a table and its mirror is below the floor. -/
theorem floor_le_sum {tables : Finset ℕ} (hb : b ≤ n) (hc : c ≤ n) (table : b ∈ tables)
    (mirror : c ∈ tables) :
    min 1 (2 / (n.centralBinom : ℚ)) ≤ ∑ a ∈ tables, weight n n (b + c) a := by
  have fits : b + c ≤ 2 * n := by omega
  by_cases differ : b = c
  · subst differ
    have one : weight n n (b + b) b ≤ ∑ a ∈ tables, weight n n (b + b) a :=
      single_le_sum (fun a _ => weight_nonneg n n (b + b) a) table
    by_cases inside : 0 < b ∧ b < n
    · -- both arms are split, so there are at least four ways
      have two := two_le_choose inside.1 inside.2
      have ways : 2 ≤ n.choose b * n.choose b := by nlinarith
      exact (min_le_right _ _).trans ((by exact_mod_cast div_central_le_weight ways fits :
        (2 : ℚ) / n.centralBinom ≤ _).trans one)
    · -- the arms agree on every trial: this is the only table
      have whole : weight n n (b + b) b = 1 := by
        rw [weight_equal]
        rcases (by omega : b = 0 ∨ b = n) with rfl | rfl
        · simp
        · simp [← two_mul]
      exact (min_le_left _ _).trans (whole ▸ one)
  · have pair : weight n n (b + c) b + weight n n (b + c) c ≤
        ∑ a ∈ tables, weight n n (b + c) a := by
      rw [← sum_pair differ]
      refine sum_le_sum_of_subset_of_nonneg ?_ fun a _ _ => weight_nonneg n n (b + c) a
      exact insert_subset table (singleton_subset_iff.mpr mirror)
    have ways : 1 ≤ n.choose b * n.choose c := Nat.mul_pos (choose_pos hb) (choose_pos hc)
    have each := div_central_le_weight ways fits
    rw [← weight_mirror n b c] at pair
    calc min 1 (2 / (n.centralBinom : ℚ)) ≤ 2 / n.centralBinom := min_le_right _ _
      _ = (1 : ℕ) / n.centralBinom + (1 : ℕ) / n.centralBinom := by rw [cast_one]; ring
      _ ≤ weight n n (b + c) b + weight n n (b + c) b := add_le_add each each
      _ ≤ _ := pair

/-- The tables of two arms with `n` successes together. -/
theorem weight_separated {a : ℕ} (inside : a ≤ n) :
    weight n n n a = (n.choose a : ℚ) * n.choose a / n.centralBinom := by
  rw [weight, choose_symm inside, ← two_mul, centralBinom]

/-- All but the two tables that pull the arms apart weigh at least four times as much. -/
theorem four_div_le_weight {a : ℕ} (low : 0 < a) (high : a < n) :
    4 / (n.centralBinom : ℚ) ≤ weight n n n a := by
  have two : (2 : ℚ) ≤ n.choose a := by exact_mod_cast two_le_choose low high
  rw [weight_separated high.le]
  have positive := centralBinom_pos_rat n
  gcongr
  nlinarith

theorem weight_apart {a : ℕ} (apart : a = 0 ∨ a = n) :
    weight n n n a = 1 / n.centralBinom := by
  rcases apart with rfl | rfl
  · rw [weight_separated (Nat.zero_le n), choose_zero_right, cast_one, one_mul]
  · rw [weight_separated le_rfl, choose_self, cast_one, one_mul]

end EqualArms

/-! ## Samples without a success -/

section Sample

variable {n c k : ℕ}

/-- How likely a sample of `k` from `n` trials holds none of their `c` successes. -/
def miss (n c k : ℕ) : ℚ := (n - c).choose k / n.choose k

theorem miss_nonneg (n c k : ℕ) : 0 ≤ miss n c k := by
  unfold miss
  positivity

theorem miss_le_one (n c k : ℕ) : miss n c k ≤ 1 := by
  have fewer : ((n - c).choose k : ℚ) ≤ n.choose k := by
    exact_mod_cast choose_le_choose k (Nat.sub_le n c)
  exact div_le_one_of_le₀ fewer (by positivity)

theorem miss_of_lt (few : n - c < k) : miss n c k = 0 := by
  rw [miss, choose_eq_zero_of_lt few, cast_zero, zero_div]

theorem miss_antitone_successes {c' : ℕ} (le : c ≤ c') : miss n c' k ≤ miss n c k := by
  have fewer : ((n - c').choose k : ℚ) ≤ (n - c).choose k := by
    exact_mod_cast choose_le_choose k (Nat.sub_le_sub_left le n)
  exact div_le_div_of_nonneg_right fewer (by positivity)

theorem miss_succ_le (size : k + 1 ≤ n) : miss n c (k + 1) ≤ miss n c k := by
  have positive : (0 : ℚ) < n.choose k := by exact_mod_cast choose_pos (by omega)
  have positive' : (0 : ℚ) < n.choose (k + 1) := by exact_mod_cast choose_pos size
  rw [miss, miss, div_le_div_iff₀ positive' positive]
  have failing := choose_succ_right_eq (n - c) k
  have all := choose_succ_right_eq n k
  have less : (n - c).choose (k + 1) * n.choose k ≤ (n - c).choose k * n.choose (k + 1) := by
    refine Nat.le_of_mul_le_mul_right ?_ (Nat.succ_pos k)
    calc (n - c).choose (k + 1) * n.choose k * (k + 1)
        = (n - c).choose (k + 1) * (k + 1) * n.choose k := by ring
      _ = (n - c).choose k * n.choose k * (n - c - k) := by rw [failing]; ring
      _ ≤ (n - c).choose k * n.choose k * (n - k) := Nat.mul_le_mul_left _ (by omega)
      _ = (n - c).choose k * (n.choose (k + 1) * (k + 1)) := by rw [all]; ring
      _ = (n - c).choose k * n.choose (k + 1) * (k + 1) := by ring
  exact_mod_cast less

theorem miss_antitone_size {k' : ℕ} (le : k ≤ k') (size : k' ≤ n) :
    miss n c k' ≤ miss n c k := by
  induction k', le using Nat.le_induction with
  | base => exact le_rfl
  | succ k' _ ih => exact (miss_succ_le size).trans (ih (Nat.le_of_succ_le size))

theorem miss_one (some' : 0 < n) (le : c ≤ n) : miss n c 1 = 1 - c / n := by
  have positive : (n : ℚ) ≠ 0 := by exact_mod_cast some'.ne'
  rw [miss, choose_one_right, choose_one_right, cast_sub le]
  field_simp

/-- One factor of the running product takes a trial out. -/
theorem choose_factor {m : ℕ} (size : k ≤ m) :
    (1 - (k : ℚ) / (m + 1)) * (m + 1).choose k = m.choose k := by
  have step := choose_mul_succ_eq m k
  have step : (m.choose k : ℚ) * (m + 1) = (m + 1).choose k * (m + 1 - k) := by
    have cast := congrArg (fun n : ℕ => (n : ℚ)) step
    push_cast [Nat.cast_sub (show k ≤ m + 1 by omega)] at cast
    exact cast
  have positive : ((m : ℚ) + 1) ≠ 0 := by positivity
  field_simp
  linarith

end Sample

end Hypergeometric
