import Everdict.Hypergeometric
import Mathlib.Algebra.BigOperators.Field
import Mathlib.Data.Nat.Choose.Vandermonde

/-!
# Tables of two arms and two outcomes

The tables with the margins of one table are as many as its first entry has room
(`mem_withMargins`), and their hypergeometric probabilities add up to one (`sum_probability`).
`exactTest` adds up those of the tables no more likely than the given one; what keeps the
margins and the probabilities of all tables keeps it (`exactTest_map`).
-/

namespace Contingency

open Finset Nat Hypergeometric

/-- `a` and `b` are the passes and failures of one arm, `c` and `d` those of the other. -/
@[ext]
structure Table22 where
  a : ℕ
  b : ℕ
  c : ℕ
  d : ℕ
  deriving DecidableEq

namespace Table22

def SameMargins (t t' : Table22) : Prop :=
  t.a + t.b = t'.a + t'.b ∧ t.c + t.d = t'.c + t'.d ∧ t.a + t.c = t'.a + t'.c ∧
    t.b + t.d = t'.b + t'.d

/-- The hypergeometric probability among the tables with its margins. -/
def probability (t : Table22) : ℚ := weight (t.a + t.b) (t.c + t.d) (t.a + t.c) t.a

/-- The table with another first entry and the same margins. -/
def refill (t : Table22) (a : ℕ) : Table22 :=
  ⟨a, t.a + t.b - a, t.a + t.c - a, t.c + t.d - (t.a + t.c - a)⟩

def room (t : Table22) : Finset ℕ := Icc (t.a + t.c - (t.c + t.d)) (min (t.a + t.b) (t.a + t.c))

def withMargins (t : Table22) : Finset Table22 := t.room.image t.refill

/-- The probability of the tables that are no more likely than this one. -/
def exactTest (t : Table22) : ℚ :=
  ∑ t' ∈ t.withMargins with t'.probability ≤ t.probability, t'.probability

variable {t t' : Table22}

theorem mem_room {a : ℕ} :
    a ∈ t.room ↔ t.a + t.c - (t.c + t.d) ≤ a ∧ a ≤ t.a + t.b ∧ a ≤ t.a + t.c := by
  rw [room, mem_Icc, le_min_iff]

theorem refill_injective (t : Table22) : Function.Injective t.refill :=
  fun _ _ eq => congrArg Table22.a eq

theorem mem_withMargins : t' ∈ t.withMargins ↔ t'.SameMargins t := by
  rw [withMargins, mem_image]
  simp only [mem_room, SameMargins]
  constructor
  · rintro ⟨a, bounds, rfl⟩
    simp only [refill]
    omega
  · intro same
    refine ⟨t'.a, by omega, ?_⟩
    ext
    · rfl
    · simp only [refill]; omega
    · simp only [refill]; omega
    · simp only [refill]; omega

theorem probability_nonneg (t : Table22) : 0 ≤ t.probability := weight_nonneg _ _ _ _

theorem probability_pos (t : Table22) : 0 < t.probability := by
  have first : 0 < (t.a + t.b).choose t.a := choose_pos (Nat.le_add_right _ _)
  have second : 0 < (t.c + t.d).choose (t.a + t.c - t.a) := choose_pos (by omega)
  have total : 0 < (t.a + t.b + (t.c + t.d)).choose (t.a + t.c) := choose_pos (by omega)
  rw [probability, weight]
  have first : (0 : ℚ) < (t.a + t.b).choose t.a := by exact_mod_cast first
  have second : (0 : ℚ) < (t.c + t.d).choose (t.a + t.c - t.a) := by exact_mod_cast second
  have total : (0 : ℚ) < (t.a + t.b + (t.c + t.d)).choose (t.a + t.c) := by exact_mod_cast total
  positivity

/-- The form in which the arms, the outcomes and the two margins play the same part. -/
theorem probability_eq (t : Table22) :
    t.probability = ((t.a + t.b)! * (t.c + t.d)! * (t.a + t.c)! * (t.b + t.d)! : ℚ) /
      ((t.a + t.b + (t.c + t.d))! * t.a ! * t.b ! * t.c ! * t.d !) := by
  rw [probability, weight_eq_factorials (by omega) (by omega) (by omega)]
  rw [show t.a + t.b + (t.c + t.d) - (t.a + t.c) = t.b + t.d by omega,
    show t.a + t.b - t.a = t.b by omega, show t.a + t.c - t.a = t.c by omega,
    show t.c + t.d - t.c = t.d by omega]

/-! ## All tables -/

/-- Of `m` and `n` together `k` are drawn. -/
theorem sum_weight {m n k : ℕ} (some' : k ≤ m + n) :
    ∑ a ∈ Icc (k - n) (min m k), weight m n k a = 1 := by
  have positive : ((m + n).choose k : ℚ) ≠ 0 := by exact_mod_cast (choose_pos some').ne'
  have whole : ∑ a ∈ range (k + 1), m.choose a * n.choose (k - a) = (m + n).choose k := by
    rw [add_choose_eq, sum_antidiagonal_eq_sum_range_succ_mk]
  have inside : ∑ a ∈ Icc (k - n) (min m k), m.choose a * n.choose (k - a)
      = ∑ a ∈ range (k + 1), m.choose a * n.choose (k - a) := by
    refine sum_subset (fun a isIn => ?_) fun a isIn outside => ?_
    · rw [mem_Icc, le_min_iff] at isIn
      exact mem_range_succ_iff.mpr isIn.2.2
    · rw [mem_range_succ_iff] at isIn
      rw [mem_Icc, le_min_iff] at outside
      -- one of the two arms has too few
      by_cases many : m < a
      · rw [choose_eq_zero_of_lt many, Nat.zero_mul]
      · rw [choose_eq_zero_of_lt (show n < k - a by omega), Nat.mul_zero]
  simp only [weight]
  rw [← sum_div, div_eq_one_iff_eq positive]
  exact_mod_cast inside.trans whole

theorem probability_refill {a : ℕ} (isIn : a ∈ t.room) :
    (t.refill a).probability = weight (t.a + t.b) (t.c + t.d) (t.a + t.c) a := by
  have same := mem_withMargins.mp (mem_image_of_mem t.refill isIn)
  rw [probability, same.1, same.2.1, same.2.2.1]
  rfl

theorem sum_probability (t : Table22) : ∑ t' ∈ t.withMargins, t'.probability = 1 := by
  rw [withMargins, sum_image fun _ _ _ _ eq => t.refill_injective eq,
    sum_congr rfl fun a isIn => probability_refill isIn, room]
  exact sum_weight (by omega)

/-! ## The exact test -/

theorem exactTest_pos (t : Table22) : 0 < t.exactTest := by
  refine sum_pos (fun t' _ => t'.probability_pos) ⟨t, ?_⟩
  exact mem_filter.mpr ⟨mem_withMargins.mpr ⟨rfl, rfl, rfl, rfl⟩, le_rfl⟩

theorem exactTest_le_one (t : Table22) : t.exactTest ≤ 1 := by
  rw [← t.sum_probability]
  exact sum_le_sum_of_subset_of_nonneg (filter_subset _ _) fun t' _ _ => t'.probability_nonneg

/-- Relabelling the tables without losing margins or probabilities keeps the test. -/
theorem exactTest_map (f : Table22 → Table22) (involutive : Function.Involutive f)
    (likely : ∀ t, (f t).probability = t.probability)
    (margins : ∀ t t', t'.SameMargins t → (f t').SameMargins (f t)) (t : Table22) :
    (f t).exactTest = t.exactTest := by
  have keeps : ∀ t : Table22, ∀ t' ∈ t.withMargins.filter fun t' => t'.probability ≤ t.probability,
      f t' ∈ (f t).withMargins.filter fun t' => t'.probability ≤ (f t).probability := by
    intro t t' isIn
    rw [mem_filter, mem_withMargins] at isIn ⊢
    rw [likely, likely]
    exact ⟨margins t t' isIn.1, isIn.2⟩
  refine (sum_bij' (fun t' _ => f t') (fun t' _ => f t') (keeps t) ?_ ?_ ?_ ?_).symm
  · intro t' isIn
    have back := keeps (f t) t' isIn
    rwa [involutive t] at back
  · exact fun t' _ => involutive t'
  · exact fun t' _ => involutive t'
  · exact fun t' _ => (likely t').symm

def swapArms (t : Table22) : Table22 := ⟨t.c, t.d, t.a, t.b⟩

def swapOutcomes (t : Table22) : Table22 := ⟨t.b, t.a, t.d, t.c⟩

def transpose (t : Table22) : Table22 := ⟨t.a, t.c, t.b, t.d⟩

theorem exactTest_swapArms (t : Table22) : t.swapArms.exactTest = t.exactTest := by
  refine exactTest_map swapArms (fun _ => rfl) (fun t => ?_) (fun t t' same => ?_) t
  · rw [probability_eq, probability_eq]
    simp only [swapArms]
    rw [Nat.add_comm (t.c + t.d), Nat.add_comm t.c t.a, Nat.add_comm t.d t.b]
    ring
  · simp only [SameMargins, swapArms] at same ⊢
    omega

theorem exactTest_swapOutcomes (t : Table22) : t.swapOutcomes.exactTest = t.exactTest := by
  refine exactTest_map swapOutcomes (fun _ => rfl) (fun t => ?_) (fun t t' same => ?_) t
  · rw [probability_eq, probability_eq]
    simp only [swapOutcomes]
    rw [Nat.add_comm t.b t.a, Nat.add_comm t.d t.c]
    ring
  · simp only [SameMargins, swapOutcomes] at same ⊢
    omega

theorem exactTest_transpose (t : Table22) : t.transpose.exactTest = t.exactTest := by
  refine exactTest_map transpose (fun _ => rfl) (fun t => ?_) (fun t t' same => ?_) t
  · rw [probability_eq, probability_eq]
    simp only [transpose]
    rw [Nat.add_add_add_comm t.a t.c t.b t.d]
    ring
  · simp only [SameMargins, transpose] at same ⊢
    omega

end Table22

end Contingency
