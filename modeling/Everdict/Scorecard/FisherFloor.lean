import Everdict.Contracts.EvolutionCampaign
import Everdict.Hypergeometric
import Everdict.Scorecard.Trials
import Mathlib.Analysis.Complex.ExponentialBounds

/-!
# The least value of the exact test

A frame that declares fewer trials than its level needs is refused from
`equalArmFisherFloor`, which is computed as a product.  In exact arithmetic that product is the
central binomial coefficient, and the floor is the least value of `fisherExactTwoSided` over
two arms of that many trials, reached when the arms are pulled apart (`refusal_floor`).

The test compares logarithms and allows them to differ by `1e-9`: one table may outweigh
another by the factor `tolerance`.
-/

namespace Everdict.Scorecard

open Finset Hypergeometric Nat

/-! ## The test -/

/-- `Math.exp(logTable(a))` -/
def tableWeight (row1 row2 col1 a : ℕ) : ℚ :=
  (row1 ! * row2 ! * col1 ! * (row1 + row2 - col1)!) /
    ((row1 + row2)! * a ! * (row1 - a)! * (col1 - a)! * (row2 - (col1 - a))!)

/-- The tables no more likely than the observed one, up to the factor `slack`. -/
def fisherExactTwoSided {K : Type*} [Field K] [LinearOrder K] (slack : K) (cb nb cc nc : ℕ) : ℚ :=
  let col1 := cb + cc
  let tables := (Icc (col1 - nc) (min nb col1)).filter fun a =>
    (tableWeight nb nc col1 a : K) ≤ tableWeight nb nc col1 cb * slack
  min 1 (∑ a ∈ tables, tableWeight nb nc col1 a)

/-- By how much one table may outweigh another and count as no more likely. -/
noncomputable def tolerance : ℝ := Real.exp (1 / 10 ^ 9)

/-! ## The refusal -/

/-- The product that `equalArmFisherFloor` runs up. -/
def centralProduct (trials : ℕ) : ℕ → ℚ
  | 0 => 1
  | i + 1 => centralProduct trials i * ((trials + (i + 1)) / (i + 1))

def equalArmFisherFloor (trials : ℚ) : ℚ :=
  if trials.den ≠ 1 ∨ trials < 1 then 1
  else min 1 (2 / centralProduct trials.num.toNat trials.num.toNat)

/-- `value.toFixed(digits)` for a value below `1e21`. -/
def toFixed (digits : ℕ) (value : ℚ) : String :=
  let n := ⌊|value| * 10 ^ digits + 1 / 2⌋.toNat
  let fraction := Nat.toDigits 10 (n % 10 ^ digits)
  (if value < 0 then "-" else "") ++ toString (n / 10 ^ digits) ++ "." ++
    String.ofList (List.replicate (digits - fraction.length) '0' ++ fraction)

def unwinnableFrameDefect (frame : CampaignFrame) : Option String :=
  match frame.significance.fdrAlpha, frame.significance.heldOutFamilySize with
  | some fdrAlpha, some heldOutFamilySize =>
      if frame.trialsPerCase ≥ FISHER_MAX_TRIALS then none
      else
        let floor := equalArmFisherFloor frame.trialsPerCase
        let level := fdrAlpha / heldOutFamilySize
        if floor ≤ level then none
        else some ("no round of this campaign can produce a significant case: with "
          ++ s!"{frame.trialsPerCase} trials per case the exact test cannot return a p below "
          ++ s!"{toFixed 6 floor}, and this frame is judged at fdrAlpha/heldOutFamilySize = "
          ++ s!"{toFixed 6 level} — raise trialsPerCase, or declare a level the trials can reach")
  | _, _ => none

/-! ## The product -/

theorem centralProduct_eq (trials i : ℕ) : centralProduct trials i = (trials + i).choose i := by
  induction i with
  | zero => simp [centralProduct]
  | succ i ih =>
      have step := Nat.add_one_mul_choose_eq (trials + i) i
      have step : ((trials + i + 1 : ℕ) : ℚ) * (trials + i).choose i =
          (trials + i + 1).choose (i + 1) * (i + 1 : ℕ) := by exact_mod_cast step
      have positive : ((i : ℚ) + 1) ≠ 0 := by positivity
      rw [centralProduct, ih, ← Nat.add_assoc]
      field_simp
      push_cast at step
      linarith

theorem equalArmFisherFloor_eq {n : ℕ} (some' : 1 ≤ n) :
    equalArmFisherFloor n = min 1 (2 / (n.centralBinom : ℚ)) := by
  have whole : ¬ ((n : ℚ).den ≠ 1 ∨ (n : ℚ) < 1) := by
    rw [not_or, not_not, not_lt]
    exact ⟨Rat.den_natCast n, by exact_mod_cast some'⟩
  rw [equalArmFisherFloor, if_neg whole, Rat.num_natCast, Int.toNat_natCast, centralProduct_eq,
    ← two_mul, centralBinom]

/-! ## The least value -/

section Least

variable {K : Type*} [Field K] [LinearOrder K] [IsStrictOrderedRing K] {slack : K} {n b c : ℕ}

theorem tableWeight_eq {m n k a : ℕ} (first : a ≤ m) (inside : a ≤ k) (second : k - a ≤ n) :
    tableWeight m n k a = weight m n k a := (weight_eq_factorials first inside second).symm

/-- The tables that the test adds up. -/
def noMoreLikely (slack : K) (n b c : ℕ) : Finset ℕ :=
  (Icc (b + c - n) (min n (b + c))).filter fun a =>
    (weight n n (b + c) a : K) ≤ weight n n (b + c) b * slack

omit [IsStrictOrderedRing K] in
theorem fisherExactTwoSided_eq (hb : b ≤ n) (hc : c ≤ n) :
    fisherExactTwoSided slack b n c n =
      min 1 (∑ a ∈ noMoreLikely slack n b c, weight n n (b + c) a) := by
  have inRange : ∀ a ∈ Icc (b + c - n) (min n (b + c)),
      tableWeight n n (b + c) a = weight n n (b + c) a := by
    intro a isIn
    rw [mem_Icc, le_min_iff] at isIn
    exact tableWeight_eq isIn.2.1 isIn.2.2 (by omega)
  have observed : tableWeight n n (b + c) b = weight n n (b + c) b :=
    tableWeight_eq hb (by omega) (by omega)
  unfold fisherExactTwoSided noMoreLikely
  simp only [observed]
  congr 1
  refine sum_congr (filter_congr fun a isIn => by rw [inRange a isIn]) fun a isIn => ?_
  exact inRange a (mem_filter.mp isIn).1

omit [IsStrictOrderedRing K] in
theorem mem_noMoreLikely {a : ℕ} :
    a ∈ noMoreLikely slack n b c ↔ (b + c - n ≤ a ∧ a ≤ n ∧ a ≤ b + c) ∧
      (weight n n (b + c) a : K) ≤ weight n n (b + c) b * slack := by
  rw [noMoreLikely, mem_filter, mem_Icc, le_min_iff]

variable (one_le : 1 ≤ slack)
include one_le

theorem weight_le_slack (k a : ℕ) : (weight n n k a : K) ≤ weight n n k a * slack :=
  le_mul_of_one_le_right (by exact_mod_cast weight_nonneg n n k a) one_le

theorem floor_le_fisher (hb : b ≤ n) (hc : c ≤ n) :
    min 1 (2 / (n.centralBinom : ℚ)) ≤ fisherExactTwoSided slack b n c n := by
  rw [fisherExactTwoSided_eq hb hc]
  refine le_min (min_le_left _ _) (floor_le_sum hb hc ?_ ?_)
  · exact mem_noMoreLikely.mpr ⟨by omega, weight_le_slack one_le _ _⟩
  · refine mem_noMoreLikely.mpr ⟨by omega, ?_⟩
    rw [← weight_mirror n b c]
    exact weight_le_slack one_le _ _

/-- Between arms pulled apart only the table and its mirror are no more likely. -/
theorem noMoreLikely_apart (lt_four : slack < 4) : noMoreLikely slack n 0 n = {0, n} := by
  have positive : (0 : K) < n.centralBinom := by exact_mod_cast n.centralBinom_pos
  ext a
  rw [mem_noMoreLikely, mem_insert, mem_singleton, Nat.zero_add, weight_apart (Or.inl rfl)]
  constructor
  · rintro ⟨⟨_, inside, _⟩, light⟩
    by_contra split
    rw [not_or] at split
    have heavy : ((4 / n.centralBinom : ℚ) : K) ≤ weight n n n a :=
      Rat.cast_le.mpr (four_div_le_weight (by omega) (by omega))
    have less : (1 / n.centralBinom : K) * slack < 4 / n.centralBinom := by
      rw [one_div_mul_eq_div]
      exact div_lt_div_of_pos_right lt_four positive
    push_cast at heavy light
    exact absurd (heavy.trans light) (not_le.mpr less)
  · intro apart
    refine ⟨by omega, ?_⟩
    rw [weight_apart apart]
    push_cast
    exact le_mul_of_one_le_right (by positivity) one_le

theorem fisher_apart (lt_four : slack < 4) (some' : 1 ≤ n) :
    fisherExactTwoSided slack 0 n n n = min 1 (2 / (n.centralBinom : ℚ)) := by
  rw [fisherExactTwoSided_eq (Nat.zero_le n) le_rfl, noMoreLikely_apart one_le lt_four,
    sum_pair (by omega), Nat.zero_add, weight_apart (Or.inl rfl), weight_apart (Or.inr rfl),
    ← add_div, one_add_one_eq_two]

/-- The floor is the least value over two arms of `n` trials. -/
theorem isLeast_fisher (lt_four : slack < 4) (some' : 1 ≤ n) :
    IsLeast {p | ∃ b ≤ n, ∃ c ≤ n, fisherExactTwoSided slack b n c n = p}
      (equalArmFisherFloor n) := by
  rw [equalArmFisherFloor_eq some']
  constructor
  · exact ⟨0, Nat.zero_le n, n, le_rfl, fisher_apart one_le lt_four some'⟩
  · rintro p ⟨b, hb, c, hc, rfl⟩
    exact floor_le_fisher one_le hb hc

end Least

theorem one_le_tolerance : 1 ≤ tolerance := Real.one_le_exp (by positivity)

theorem tolerance_lt_four : tolerance < 4 := by
  have small : tolerance ≤ Real.exp 1 := Real.exp_le_exp.mpr (by norm_num)
  exact small.trans_lt (Real.exp_one_lt_three.trans (by norm_num))

/-- The floor is the test's least value, so a frame is refused exactly when no pair of arms of
its size reaches the level it declares. -/
theorem refusal_floor :
    (∀ n : ℕ, 1 ≤ n →
        IsLeast {p | ∃ b ≤ n, ∃ c ≤ n, fisherExactTwoSided tolerance b n c n = p}
          (equalArmFisherFloor n) ∧
        fisherExactTwoSided tolerance 0 n n n = equalArmFisherFloor n) ∧
      ∀ (frame : CampaignFrame) (fdrAlpha : ℚ) (heldOutFamilySize : ℕ),
        1 ≤ frame.trialsPerCase → frame.trialsPerCase < FISHER_MAX_TRIALS →
          frame.significance.fdrAlpha = some fdrAlpha →
            frame.significance.heldOutFamilySize = some heldOutFamilySize →
              ((unwinnableFrameDefect frame).isSome = true ↔
                ¬ ∃ b ≤ frame.trialsPerCase, ∃ c ≤ frame.trialsPerCase,
                  fisherExactTwoSided tolerance b frame.trialsPerCase c frame.trialsPerCase ≤
                    fdrAlpha / heldOutFamilySize) := by
  constructor
  · intro n some'
    refine ⟨isLeast_fisher one_le_tolerance tolerance_lt_four some', ?_⟩
    rw [fisher_apart one_le_tolerance tolerance_lt_four some', equalArmFisherFloor_eq some']
  · intro frame fdrAlpha heldOutFamilySize some' below alpha family
    have least := isLeast_fisher one_le_tolerance tolerance_lt_four some'
    have refused : (unwinnableFrameDefect frame).isSome = true ↔
        ¬ equalArmFisherFloor frame.trialsPerCase ≤ fdrAlpha / heldOutFamilySize := by
      unfold unwinnableFrameDefect
      rw [alpha, family]
      dsimp only
      rw [if_neg (not_le.mpr below)]
      split_ifs with reached
      · simp [reached]
      · simp [reached]
    rw [refused, not_iff_not]
    constructor
    · intro reached
      obtain ⟨b, hb, c, hc, eq⟩ := least.1
      exact ⟨b, hb, c, hc, eq.trans_le reached⟩
    · rintro ⟨b, hb, c, hc, reached⟩
      exact (least.2 ⟨b, hb, c, hc, rfl⟩).trans reached

/-- One held-out case judged at the level of 0.05. -/
def briefFrame (trials : ℕ) : CampaignFrame where
  subject := { type := .harness, id := "coder", baselineVersion := "1.0.0" }
  scenarios := [{ id := "a", heldOut := true }]
  trialsPerCase := trials
  budget := { maxRounds := 1, positive := Nat.one_pos }
  stopAfterRejectedRounds := 1
  stopAfterSome := Nat.one_pos
  significance := { fdrAlpha := some (mkRat 1 20), heldOutFamilySize := some 1 }

/-- Three trials cannot reach that level, four can. -/
theorem refusal_floor_brief :
    ∃ alpha : ℚ, (briefFrame 3).significance.fdrAlpha = some alpha ∧
      (¬ ∃ b ≤ 3, ∃ c ≤ 3, fisherExactTwoSided tolerance b 3 c 3 ≤ alpha / (1 : ℕ)) ∧
      ∃ b ≤ 4, ∃ c ≤ 4, fisherExactTwoSided tolerance b 4 c 4 ≤ alpha / (1 : ℕ) := by
  obtain ⟨-, refused⟩ := refusal_floor
  refine ⟨_, rfl, ?_, ?_⟩
  · exact (refused (briefFrame 3) _ 1 (by decide) (by decide) rfl rfl).mp (by decide +kernel)
  · have reached : ¬ (unwinnableFrameDefect (briefFrame 4)).isSome = true := by decide +kernel
    rwa [refused (briefFrame 4) _ 1 (by decide) (by decide) rfl rfl, not_not] at reached

end Everdict.Scorecard
