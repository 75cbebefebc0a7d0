import Mathlib.Algebra.BigOperators.Group.List.Basic
import Mathlib.Algebra.Order.BigOperators.Group.List
import Mathlib.Algebra.Order.Ring.Nat
import Mathlib.Data.List.Perm.Basic
import Mathlib.Order.Bounds.Basic
import Mathlib.Tactic.Common

/-!
# Shares of a budget

A common allowance gives each of some sizes what it needs up to the allowance.  The max-min
fair allowance is the largest one whose total stays in the budget.  A division that charges an
empty size a whole allowance finds it exactly when the empty sizes, charged so, fit as well
(`isGreatest_iff`).
-/

namespace WaterFilling

/-- What the sizes take of an allowance. -/
def used (sizes : List Nat) (allowance : Nat) : Nat := (sizes.map (min · allowance)).sum

/-- What they take when an empty size is charged a whole allowance. -/
def charged (sizes : List Nat) (allowance : Nat) : Nat :=
  (sizes.map fun size => if size = 0 then allowance else min size allowance).sum

/-- Whatever allowance the budget can give to the sizes, it can give to the empty ones too. -/
def EmptiesFit (sizes : List Nat) (budget : Nat) : Prop :=
  ∀ size ∈ sizes, ∀ allowance ≤ size, used sizes allowance ≤ budget →
    used sizes allowance + sizes.count 0 * allowance ≤ budget

variable {sizes sizes' : List Nat} {budget allowance allowance' share : Nat}

theorem used_cons (size : Nat) (sizes : List Nat) (allowance : Nat) :
    used (size :: sizes) allowance = min size allowance + used sizes allowance := by
  rw [used, used, List.map_cons, List.sum_cons]

theorem charged_cons (size : Nat) (sizes : List Nat) (allowance : Nat) :
    charged (size :: sizes) allowance =
      (if size = 0 then allowance else min size allowance) + charged sizes allowance := by
  rw [charged, charged, List.map_cons, List.sum_cons]

theorem charged_eq (sizes : List Nat) (allowance : Nat) :
    charged sizes allowance = used sizes allowance + sizes.count 0 * allowance := by
  induction sizes with
  | nil => simp [charged, used]
  | cons size sizes ih =>
      rw [charged_cons, used_cons, ih, List.count_cons, Nat.add_mul]
      simp only [beq_iff_eq]
      split_ifs with empty
      · rw [empty, Nat.zero_min, Nat.one_mul]
        omega
      · omega

theorem used_le_charged (sizes : List Nat) (allowance : Nat) :
    used sizes allowance ≤ charged sizes allowance := by
  rw [charged_eq]
  exact Nat.le_add_right _ _

theorem used_mono (le : allowance ≤ allowance') : used sizes allowance ≤ used sizes allowance' := by
  induction sizes with
  | nil => exact Nat.le_refl _
  | cons size sizes ih =>
      rw [used_cons, used_cons]
      omega

theorem charged_mono (le : allowance ≤ allowance') :
    charged sizes allowance ≤ charged sizes allowance' := by
  rw [charged_eq, charged_eq]
  exact Nat.add_le_add (used_mono le) (Nat.mul_le_mul_left _ le)

theorem used_le_sum (sizes : List Nat) (allowance : Nat) : used sizes allowance ≤ sizes.sum := by
  induction sizes with
  | nil => exact Nat.le_refl _
  | cons size sizes ih =>
      rw [used_cons, List.sum_cons]
      omega

/-- An allowance that no size exceeds gives all of them what they need. -/
theorem used_eq_sum (all : ∀ size ∈ sizes, size ≤ allowance) :
    used sizes allowance = sizes.sum := by
  induction sizes with
  | nil => rfl
  | cons size sizes ih =>
      rw [List.forall_mem_cons] at all
      rw [used_cons, List.sum_cons, ih all.2]
      omega

theorem charged_append (sizes sizes' : List Nat) (allowance : Nat) :
    charged (sizes ++ sizes') allowance = charged sizes allowance + charged sizes' allowance := by
  rw [charged, List.map_append, List.sum_append]
  rfl

/-- Sizes that are served cost what they are. -/
theorem charged_served (served : ∀ size ∈ sizes, 0 < size ∧ size ≤ allowance) :
    charged sizes allowance = sizes.sum := by
  have none : sizes.count 0 = 0 :=
    List.count_eq_zero.mpr fun isIn => absurd (served 0 isIn).1 (Nat.lt_irrefl 0)
  rw [charged_eq, used_eq_sum fun size isIn => (served size isIn).2, none, Nat.zero_mul,
    Nat.add_zero]

/-- Sizes that want more cost an allowance each. -/
theorem charged_wanting (wanting : ∀ size ∈ sizes, size = 0 ∨ allowance ≤ size) :
    charged sizes allowance = sizes.length * allowance := by
  induction sizes with
  | nil => simp [charged]
  | cons size sizes ih =>
      rw [List.forall_mem_cons] at wanting
      rw [charged_cons, ih wanting.2, List.length_cons, Nat.add_mul]
      split_ifs with empty
      · omega
      · have := wanting.1.resolve_left empty
        omega

theorem sum_le_of_served (served : ∀ size ∈ sizes, size ≤ share) :
    sizes.sum ≤ sizes.length * share := by
  induction sizes with
  | nil => exact Nat.zero_le _
  | cons size sizes ih =>
      rw [List.forall_mem_cons] at served
      rw [List.sum_cons, List.length_cons, Nat.add_mul]
      have rest := ih served.2
      omega

theorem charged_perm (same : sizes.Perm sizes') (allowance : Nat) :
    charged sizes allowance = charged sizes' allowance := (same.map _).sum_eq

/-- A share is found by the division where it fits with the empty sizes charged, and one more
does not. -/
structure Found (sizes : List Nat) (budget share : Nat) : Prop where
  fits : charged sizes share ≤ budget
  tight : budget < charged sizes (share + 1)

theorem Found.le_share (found : Found sizes budget share) (fits : charged sizes allowance ≤ budget) :
    allowance ≤ share := by
  by_contra more
  have le : charged sizes (share + 1) ≤ charged sizes allowance := charged_mono (by omega)
  exact absurd (le.trans fits) (Nat.not_le.mpr found.tight)

/-- Where the sizes fit, a found share leaves them whole exactly if the empty ones fit too. -/
theorem Found.whole_iff (found : Found sizes budget share) (enough : sizes.sum ≤ budget) :
    (∀ size ∈ sizes, size ≤ share) ↔ EmptiesFit sizes budget := by
  constructor
  · intro whole size isIn allowance le _
    rw [← charged_eq]
    exact (charged_mono (le.trans (whole size isIn))).trans found.fits
  · intro empties size isIn
    refine found.le_share ?_
    rw [charged_eq]
    exact empties size isIn size (Nat.le_refl _) ((used_le_sum sizes size).trans enough)

/-- Where they do not, it is the fair allowance exactly under the same condition. -/
theorem Found.isGreatest_iff (found : Found sizes budget share) (short : budget < sizes.sum) :
    IsGreatest {allowance | used sizes allowance ≤ budget} share ↔ EmptiesFit sizes budget := by
  constructor
  · intro greatest size _ allowance _ fits
    rw [← charged_eq]
    exact (charged_mono (greatest.2 fits)).trans found.fits
  · intro empties
    refine ⟨(used_le_charged _ _).trans found.fits, fun allowance fits => ?_⟩
    by_contra more
    have more : share + 1 ≤ allowance := by
      have := Nat.not_le.mp more
      omega
    have next : used sizes (share + 1) ≤ budget := (used_mono more).trans fits
    -- some size is above the next share, or all of them would fit
    obtain ⟨size, isIn, above⟩ : ∃ size ∈ sizes, share + 1 ≤ size := by
      by_contra none
      push Not at none
      have all := used_eq_sum fun size isIn => (none size isIn).le
      omega
    have charge := empties size isIn (share + 1) above next
    rw [← charged_eq] at charge
    exact absurd charge (Nat.not_le.mpr found.tight)

end WaterFilling
