import Mathlib.Algebra.Order.Field.Basic
import Mathlib.Tactic.Linarith
import Everdict.Scorecard.DeadCases

/-!
# What `require_full` lets through

The diff calls a comparison partial when a metric is measured on different shares
of the two sides' rows, in either direction.  The gate withholds a partial
comparison for the reasons that `missingnessReasons` lists, and of the shares it
lists only the losses.  So a gate that requires a full comparison decides on a
partial one exactly where a metric gained rows, none lost any, and nothing else
is wrong (`full_when_required_iff`).
-/

namespace Everdict.Scorecard

variable {sc b c : Scorecard} {m : String} {opts : DiffOptions} {gate : GatePolicy}

theorem share_le_one : share sc m ≤ 1 := by
  have le : rowsMeasuring sc m ≤ (outcomes sc).length := rowsMeasuring_le
  unfold share fractionOf
  split
  · next rows =>
      rw [div_le_one (by exact_mod_cast rows)]
      exact_mod_cast le
  · exact zero_le_one

/-- Some metric is measured on a larger share of the candidate's rows than of the
baseline's, beyond the tolerance. -/
def Gained (b c : Scorecard) : Prop :=
  ∃ m, HasMetric b m ∧ share b m + COVERAGE_EPS < share c m

/-- A share that is not lost as a part of the baseline's is not lost absolutely. -/
theorem Lossless.sub_le (lossless : Lossless b c) (has : HasMetric b m) :
    share b m - share c m ≤ COVERAGE_EPS := by
  have eps : (0 : ℚ) ≤ COVERAGE_EPS := by decide +kernel
  have pos : 0 < share b m := share_pos_iff.mpr has
  have kept : (1 - share c m / share b m) * share b m ≤ COVERAGE_EPS * share b m :=
    mul_le_mul_of_nonneg_right (lossless m has) pos.le
  rw [sub_mul, one_mul, div_mul_cancel₀ _ pos.ne'] at kept
  exact kept.trans (mul_le_of_le_one_right eps share_le_one)

/-- Where nothing was lost, the shares differ exactly where something was gained. -/
theorem Lossless.not_symmetric_iff (lossless : Lossless b c)
    (metrics : ∀ m, HasMetric b m ↔ HasMetric c m) : ¬Symmetric b c ↔ Gained b c := by
  constructor
  · intro asymmetric
    simp only [Symmetric, not_forall, not_le] at asymmetric
    obtain ⟨m, hasB, _, beyond⟩ := asymmetric
    have sub := lossless.sub_le hasB
    rcases lt_abs.mp beyond with lost | gained
    · exact absurd sub (not_le.mpr lost)
    · exact ⟨m, hasB, by linarith⟩
  · rintro ⟨m, has, gained⟩ symmetric
    have near := symmetric m has ((metrics m).mp has)
    have above := (neg_le_abs _).trans near
    linarith

/-- What the gate takes for complete although a metric was measured on different
shares: the same columns throughout, nothing lost, and something gained. -/
structure GainedOnly (b c : Scorecard) : Prop where
  case : ∃ id, HasCase b id
  columns : SameColumns b c
  lossless : Lossless b c
  gained : Gained b c

theorem comparable_partial_iff : Comparable b c ∧ ¬Symmetric b c ↔ GainedOnly b c := by
  constructor
  · rintro ⟨comparable, asymmetric⟩
    have lossless := comparable.covered.resolve_left asymmetric
    have gained := (lossless.not_symmetric_iff comparable.columns.metrics).mp asymmetric
    exact ⟨comparable.case, comparable.columns, lossless, gained⟩
  · intro h
    obtain ⟨m, has, _⟩ := h.gained
    refine ⟨⟨h.case, ⟨m, has⟩, h.columns, .inr h.lossless⟩, ?_⟩
    exact (h.lossless.not_symmetric_iff h.columns.metrics).mpr h.gained

/-- Of two comparable sides the diff says `full` exactly when the shares agree. -/
theorem Comparable.full_iff (h : Comparable b c) :
    (diffScorecards b c opts).comparability = .full ↔ Symmetric b c := by
  have fed : (bare (diffScorecards b c opts)).toScorecardDiff = diffScorecards b c opts := rfl
  obtain ⟨id, caseB⟩ := h.case
  obtain ⟨m, metricB⟩ := h.metric
  have overlaps : Overlaps b c :=
    ⟨⟨id, caseB, (h.columns.cases id).mp caseB⟩,
      ⟨m, metricB, (h.columns.metrics m).mp metricB, h.columns.kinds m⟩⟩
  have full := comparability_eq_full_iff fed
  exact ⟨fun eq => (full.mp eq).2.2, fun symmetric => full.mpr ⟨overlaps, h.columns, symmetric⟩⟩

/-- A gate that requires a full comparison decides on full ones only, unless a
metric gained rows in a pair that is complete otherwise and within the regression
budget. -/
theorem full_when_required_iff (b c : Scorecard) (opts : DiffOptions) (gate : GatePolicy)
    (strict : gate.comparability ≠ some .allowPartial) :
    ((evaluateGate (bare (diffScorecards b c opts)) gate).decision = .pass →
        (diffScorecards b c opts).comparability = .full) ↔
      ¬(GainedOnly b c ∧ (flippedUnder b c opts).ncard ≤ gate.maxRegressions) := by
  rw [gate_passes_iff _ rfl strict, ← comparable_partial_iff]
  constructor
  · rintro full ⟨⟨comparable, asymmetric⟩, flips⟩
    exact asymmetric (comparable.full_iff.mp (full ⟨comparable, flips⟩))
  · rintro symmetric ⟨comparable, flips⟩
    rw [comparable.full_iff]
    by_contra asymmetric
    exact symmetric ⟨⟨comparable, asymmetric⟩, flips⟩

/-- A case whose grader emitted no row. -/
def ungradedRow (caseId : String) : CaseResult where
  caseId := caseId
  scores := []

/-- The grader of the second case emitted nothing. -/
def ungradedSuite : Scorecard := ⟨"agent@1", [passingRow "login", ungradedRow "search"]⟩

theorem full_when_required_iff_healthy :
    (diffScorecards healthySuite healthySuite {}).comparability = .full := by
  refine (full_when_required_iff healthySuite healthySuite {} { maxRegressions := 0 }
    (by decide)).mpr ?_ (by decide +kernel)
  rintro ⟨gains, _⟩
  obtain ⟨m, _, gained⟩ := gains.gained
  have eps : (0 : ℚ) ≤ COVERAGE_EPS := by decide +kernel
  linarith

/-- The baseline measured one of its two cases and the candidate both: the diff says
`partial`, and the gate that requires a full comparison passes. -/
theorem gained_rows_pass : ¬∀ (b c : Scorecard) (opts : DiffOptions) (gate : GatePolicy),
    gate.comparability ≠ some .allowPartial →
    (evaluateGate (bare (diffScorecards b c opts)) gate).decision = .pass →
    (diffScorecards b c opts).comparability = .full := by
  intro claim
  have full := claim ungradedSuite healthySuite {} { maxRegressions := 0 } (by decide)
    (by decide +kernel)
  have partly : (diffScorecards ungradedSuite healthySuite {}).comparability = .partly := by
    decide +kernel
  rw [partly] at full
  exact absurd full nofun

end Everdict.Scorecard
