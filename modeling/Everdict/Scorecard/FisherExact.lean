import Everdict.Contingency
import Everdict.Scorecard.FisherFloor

/-!
# The exact test of any two arms

With exact weights and no tolerance `fisherExactTwoSided` is the exact test of the table of
passes and failures, for arms of any two sizes.  What leaves that test alone leaves the code's
alone: swapping the arms, swapping pass and fail, and transposing the table.
-/

namespace Everdict.Scorecard

open Finset Hypergeometric Contingency

/-- The loop runs over the tables with the margins of the observed one. -/
theorem fisherExactTwoSided_eq_exactTest (t : Table22) :
    fisherExactTwoSided (1 : ℚ) t.a (t.a + t.b) t.c (t.c + t.d) = t.exactTest := by
  have weights : ∀ a ∈ t.room,
      tableWeight (t.a + t.b) (t.c + t.d) (t.a + t.c) a = (t.refill a).probability := by
    intro a isIn
    have bounds := Table22.mem_room.mp isIn
    rw [Table22.probability_refill isIn, tableWeight_eq bounds.2.1 bounds.2.2 (by omega)]
  have observed : tableWeight (t.a + t.b) (t.c + t.d) (t.a + t.c) t.a = t.probability :=
    tableWeight_eq (by omega) (by omega) (by omega)
  have total : ∑ a ∈ t.room with (t.refill a).probability ≤ t.probability,
      (t.refill a).probability = t.exactTest := by
    rw [Table22.exactTest, Table22.withMargins, filter_image,
      sum_image fun _ _ _ _ eq => t.refill_injective eq]
  rw [← min_eq_right t.exactTest_le_one, ← total, fisherExactTwoSided]
  simp only [observed, mul_one, Rat.cast_id]
  congr 1
  refine sum_congr (filter_congr fun a isIn => by rw [weights a isIn]) fun a isIn => ?_
  exact weights a (mem_filter.mp isIn).1

/-- Fisher's exact test is the probability of the tables no more likely than the observed one,
and is unchanged by swapping the arms, swapping the outcomes and transposing the table. -/
theorem fisher_symmetric (a b c d : ℕ) :
    fisherExactTwoSided (1 : ℚ) a (a + b) c (c + d) = (⟨a, b, c, d⟩ : Table22).exactTest ∧
      0 < fisherExactTwoSided (1 : ℚ) a (a + b) c (c + d) ∧
      fisherExactTwoSided (1 : ℚ) a (a + b) c (c + d) ≤ 1 ∧
      fisherExactTwoSided (1 : ℚ) c (c + d) a (a + b) =
        fisherExactTwoSided (1 : ℚ) a (a + b) c (c + d) ∧
      fisherExactTwoSided (1 : ℚ) b (b + a) d (d + c) =
        fisherExactTwoSided (1 : ℚ) a (a + b) c (c + d) ∧
      fisherExactTwoSided (1 : ℚ) a (a + c) b (b + d) =
        fisherExactTwoSided (1 : ℚ) a (a + b) c (c + d) := by
  have test := fisherExactTwoSided_eq_exactTest ⟨a, b, c, d⟩
  have arms := fisherExactTwoSided_eq_exactTest ⟨c, d, a, b⟩
  have outcomes := fisherExactTwoSided_eq_exactTest ⟨b, a, d, c⟩
  have transposed := fisherExactTwoSided_eq_exactTest ⟨a, c, b, d⟩
  dsimp only at test arms outcomes transposed
  rw [test, arms, outcomes, transposed]
  exact ⟨rfl, Table22.exactTest_pos _, Table22.exactTest_le_one _,
    Table22.exactTest_swapArms ⟨a, b, c, d⟩, Table22.exactTest_swapOutcomes ⟨a, b, c, d⟩,
    Table22.exactTest_transpose ⟨a, b, c, d⟩⟩

end Everdict.Scorecard
