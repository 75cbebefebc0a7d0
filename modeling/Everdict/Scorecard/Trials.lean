import Everdict.Scorecard.Gate

/-!
# The trials of a case

`diffTrials` compares two scorecards case by case over all their trials: the pass
rates of both sides, a test of their difference, and a correction over the family
of all tests.  What the tests compute in floating point (a square root, logarithms
of factorials, a normal tail) is a parameter, `TrialTests`; nothing here depends
on it.

`mem_trialCases` says which cases enter the comparison and with which rates.
-/

namespace Everdict.Scorecard

/-! ## Statistics -/

/-- The tests as they come out of floating point. -/
structure TrialTests where
  fisherExactTwoSided : Nat → Nat → Nat → Nat → ℚ
  twoProportionZ : Nat → Nat → Nat → Nat → ℚ
  twoSidedPFromZ : ℚ → ℚ

def FISHER_MAX_TRIALS : Nat := 30

/-- The indices that the step-up procedure rejects: those up to the largest rank
whose value is within its share of `alpha`. -/
def benjaminiHochberg (pValues : List ℚ) (alpha : ℚ) : List Nat :=
  let ranked := pValues.zipIdx.insertionSort fun a b => a.1 ≤ b.1
  let within := ranked.zipIdx.filter fun e => e.1.1 ≤ (e.2 + 1) / pValues.length * alpha
  match within.getLast? with
  | none => []
  | some last => (ranked.take (last.2 + 1)).map Prod.snd

/-! ## The trials of one side -/

/-- The results of a scorecard by case, in the order of first appearance. -/
def groupTrials (sc : Scorecard) : Table String (List CaseResult) :=
  Table.group CaseResult.caseId (fun rows r => rows.getD [] ++ [r]) sc.results

structure CaseTrialStats where
  caseId : String
  trials : Nat
  passes : Nat
  passRate : ℚ
  flaky : Bool
  deriving DecidableEq

/-- The trials without a verdict count on neither side of the rate. -/
def caseTrialStats (caseId : String) (results : List CaseResult) (policy : VerdictPolicy) :
    CaseTrialStats :=
  let verdicts := results.filterMap fun r => caseVerdict r policy
  let passes := verdicts.countP id
  { caseId
    trials := verdicts.length
    passes
    passRate := if verdicts.length > 0 then passes / verdicts.length else 0
    flaky := passes > 0 && passes < verdicts.length }

/-! ## The comparison -/

inductive TestMethod where
  | z
  | fisher
  deriving DecidableEq

structure TrialCase extends TrialCaseDelta where
  baselineTrials : Nat
  candidateTrials : Nat
  delta : ℚ
  z : ℚ
  method : TestMethod
  p : ℚ
  significant : Bool
  deriving DecidableEq

structure TrialDiffMissing where
  casesOnlyInBaseline : List String
  casesOnlyInCandidate : List String
  unscoredCases : List String
  deriving DecidableEq

structure TrialComparison where
  baseline : String
  candidate : String
  zThreshold : ℚ
  minDelta : ℚ
  fdrAlpha : Option ℚ
  cases : List TrialCase
  regressions : List TrialCase
  improvements : List TrialCase
  missing : TrialDiffMissing
  deriving DecidableEq

structure TrialOptions where
  zThreshold : Option ℚ := none
  minDelta : Option ℚ := none
  fdrAlpha : Option ℚ := none
  baselinePolicy : Option VerdictPolicy := none
  candidatePolicy : Option VerdictPolicy := none
  deriving DecidableEq

/-- A case whose rates were tested; `ownAlpha` says whether it is significant alone. -/
structure Tested where
  baseline : CaseTrialStats
  candidate : CaseTrialStats
  z : ℚ
  method : TestMethod
  p : ℚ
  ownAlpha : Bool
  deriving DecidableEq

def testCase (tests : TrialTests) (zThreshold : ℚ) (bs cs : CaseTrialStats) : Tested :=
  let z := tests.twoProportionZ bs.passes bs.trials cs.passes cs.trials
  if bs.trials < FISHER_MAX_TRIALS ∨ cs.trials < FISHER_MAX_TRIALS then
    let p := tests.fisherExactTwoSided bs.passes bs.trials cs.passes cs.trials
    { baseline := bs, candidate := cs, z, method := .fisher, p
      ownAlpha := p < tests.twoSidedPFromZ zThreshold }
  else
    { baseline := bs, candidate := cs, z, method := .z, p := tests.twoSidedPFromZ z
      ownAlpha := |z| ≥ zThreshold }

/-- The cases of both sides, with what each side scored. -/
def sharedStats (baseline candidate : Scorecard) (opts : TrialOptions) :
    List (CaseTrialStats × CaseTrialStats) :=
  (groupTrials candidate).entries.filterMap fun (caseId, cResults) =>
    ((groupTrials baseline).get caseId).map fun bResults =>
      (caseTrialStats caseId bResults (opts.baselinePolicy.getD DEFAULT_VERDICT_POLICY),
        caseTrialStats caseId cResults (opts.candidatePolicy.getD DEFAULT_VERDICT_POLICY))

/-- A side without a scored trial cannot be tested. -/
def scored (pair : CaseTrialStats × CaseTrialStats) : Bool :=
  pair.1.trials ≠ 0 && pair.2.trials ≠ 0

/-- The verdict over one tested case, given which tests the family rejects. -/
def settleCase (minDelta : ℚ) (rejected : Option (List Nat)) (t : Tested) (index : Nat) :
    TrialCase :=
  let statSignificant := match rejected with
    | none => t.ownAlpha
    | some rejected => index ∈ rejected
  let delta := t.candidate.passRate - t.baseline.passRate
  { caseId := t.candidate.caseId
    baselineRate := t.baseline.passRate
    candidateRate := t.candidate.passRate
    fdrSuppressed :=
      if rejected.isSome && t.ownAlpha && !statSignificant then some true else none
    baselineTrials := t.baseline.trials
    candidateTrials := t.candidate.trials
    delta
    z := t.z
    method := t.method
    p := t.p
    significant := statSignificant && minDelta ≤ |delta| }

def diffTrials (tests : TrialTests) (baseline candidate : Scorecard) (opts : TrialOptions) :
    TrialComparison :=
  let zThreshold := opts.zThreshold.getD (196 / 100)
  let minDelta := opts.minDelta.getD 0
  let shared := sharedStats baseline candidate opts
  let tested := (shared.filter scored).map fun pair => testCase tests zThreshold pair.1 pair.2
  let rejected := opts.fdrAlpha.map fun alpha => benjaminiHochberg (tested.map Tested.p) alpha
  let cases := tested.zipIdx.map fun e => settleCase minDelta rejected e.1 e.2
  let inBaseline := (groupTrials baseline).entries.map Prod.fst
  let inCandidate := (groupTrials candidate).entries.map Prod.fst
  { baseline := baseline.harness
    candidate := candidate.harness
    zThreshold
    minDelta
    fdrAlpha := opts.fdrAlpha
    cases
    regressions := cases.filter fun d => d.significant && d.delta < 0
    improvements := cases.filter fun d => d.significant && d.delta > 0
    missing :=
      { casesOnlyInBaseline := inBaseline.filter fun id => id ∉ inCandidate
        casesOnlyInCandidate := inCandidate.filter fun id => id ∉ inBaseline
        unscoredCases := (shared.filter fun pair => !scored pair).map fun pair =>
          pair.2.caseId } }

/-- What a gate reads of the comparison. -/
def TrialComparison.read (d : TrialComparison) : TrialDiff where
  fdrAlpha := d.fdrAlpha
  cases := d.cases.map TrialCase.toTrialCaseDelta
  regressions := d.regressions.map TrialCase.toTrialCaseDelta
  improvements := d.improvements.map TrialCase.toTrialCaseDelta

/-! ## Which cases enter -/

variable {sc b c : Scorecard} {caseId : String} {rows : List CaseResult} {policy : VerdictPolicy}

/-- The rows of a case. -/
def rowsOf (sc : Scorecard) (caseId : String) : List CaseResult :=
  sc.results.filter fun r => r.caseId = caseId

theorem get_groupTrials : (groupTrials sc).get caseId =
    if rowsOf sc caseId = [] then none else some (rowsOf sc caseId) := by
  rw [groupTrials, Table.get_group, rowsOf]
  induction sc.results.filter (fun r => r.caseId = caseId) using List.reverseRecOn with
  | nil => rfl
  | append_singleton rows r ih =>
      rw [List.foldl_append, List.foldl_cons, List.foldl_nil, ih]
      by_cases none : rows = []
      · simp [none]
      · simp [none]

/-- Is some trial of these rows passed? -/
def PassedSome (policy : VerdictPolicy) (rows : List CaseResult) : Prop :=
  ∃ r ∈ rows, caseVerdict r policy = some true

/-- Has some trial of these rows a verdict? -/
def JudgedSome (policy : VerdictPolicy) (rows : List CaseResult) : Prop :=
  ∃ r ∈ rows, caseVerdict r policy ≠ none

theorem trials_ne_zero_iff :
    (caseTrialStats caseId rows policy).trials ≠ 0 ↔ JudgedSome policy rows := by
  simp [caseTrialStats, JudgedSome, List.length_eq_zero_iff, List.filterMap_eq_nil_iff]

theorem passRate_pos_iff :
    0 < (caseTrialStats caseId rows policy).passRate ↔ PassedSome policy rows := by
  have some_pass : 0 < (rows.filterMap fun r => caseVerdict r policy).countP id
      ↔ PassedSome policy rows := by
    simp [List.countP_pos_iff, PassedSome]
  rw [← some_pass]
  simp only [caseTrialStats]
  have le := List.countP_le_length (p := id) (l := rows.filterMap fun r => caseVerdict r policy)
  constructor
  · intro pos
    by_contra none
    obtain zero : (rows.filterMap fun r => caseVerdict r policy).countP id = 0 := by omega
    simp [zero] at pos
  · intro pos
    have trials : 0 < (rows.filterMap fun r => caseVerdict r policy).length := by omega
    rw [if_pos trials]
    exact div_pos (by exact_mod_cast pos) (by exact_mod_cast trials)

/-- The policy under which a side of a trial comparison is judged. -/
def TrialOptions.baselineOf (opts : TrialOptions) : VerdictPolicy :=
  opts.baselinePolicy.getD DEFAULT_VERDICT_POLICY

def TrialOptions.candidateOf (opts : TrialOptions) : VerdictPolicy :=
  opts.candidatePolicy.getD DEFAULT_VERDICT_POLICY

theorem mem_sharedStats {opts : TrialOptions} {pair : CaseTrialStats × CaseTrialStats} :
    pair ∈ sharedStats b c opts ↔ ∃ id, rowsOf b id ≠ [] ∧ rowsOf c id ≠ [] ∧
      (caseTrialStats id (rowsOf b id) opts.baselineOf,
        caseTrialStats id (rowsOf c id) opts.candidateOf) = pair := by
  simp only [sharedStats, List.mem_filterMap, Option.map_eq_some_iff, get_groupTrials]
  constructor
  · rintro ⟨⟨id, cRows⟩, mem, bRows, found, rfl⟩
    have candidate := Table.get_eq_some.mpr mem
    rw [get_groupTrials] at candidate
    split at candidate
    · cases candidate
    · next someC =>
        obtain rfl := Option.some_inj.mp candidate
        split at found
        · cases found
        · next someB =>
            obtain rfl := Option.some_inj.mp found
            exact ⟨id, someB, someC, rfl⟩
  · rintro ⟨id, someB, someC, rfl⟩
    have candidate : (groupTrials c).get id = some (rowsOf c id) := by
      rw [get_groupTrials, if_neg someC]
    exact ⟨(id, rowsOf c id), Table.get_eq_some.mp candidate, rowsOf b id, if_neg someB, rfl⟩

theorem JudgedSome.ne_nil (h : JudgedSome policy rows) : rows ≠ [] := by
  obtain ⟨r, mem, _⟩ := h
  exact List.ne_nil_of_mem mem

/-- The cases that enter are those with a verdict on both sides, with their rates. -/
theorem exists_trialCase {tests : TrialTests} {opts : TrialOptions}
    {P : String → ℚ → ℚ → Prop} :
    (∃ x ∈ (diffTrials tests b c opts).read.cases, P x.caseId x.baselineRate x.candidateRate) ↔
      ∃ id, JudgedSome opts.baselineOf (rowsOf b id) ∧ JudgedSome opts.candidateOf (rowsOf c id) ∧
        P id (caseTrialStats id (rowsOf b id) opts.baselineOf).passRate
          (caseTrialStats id (rowsOf c id) opts.candidateOf).passRate := by
  have stats (zThreshold : ℚ) (bs cs : CaseTrialStats) :
      (testCase tests zThreshold bs cs).baseline = bs
        ∧ (testCase tests zThreshold bs cs).candidate = cs := by
    unfold testCase
    split <;> exact ⟨rfl, rfl⟩
  have scored_iff (id : String) :
      scored (caseTrialStats id (rowsOf b id) opts.baselineOf,
        caseTrialStats id (rowsOf c id) opts.candidateOf) = true ↔
        JudgedSome opts.baselineOf (rowsOf b id) ∧ JudgedSome opts.candidateOf (rowsOf c id) := by
    simp only [scored, Bool.and_eq_true, decide_eq_true_eq, trials_ne_zero_iff]
  simp only [TrialComparison.read, diffTrials, List.mem_map, exists_exists_and_eq_and]
  constructor
  · rintro ⟨⟨t, index⟩, mem, holds⟩
    have tested := List.fst_mem_of_mem_zipIdx mem
    obtain ⟨pair, kept, rfl⟩ := List.mem_map.mp tested
    obtain ⟨shared, both⟩ := List.mem_filter.mp kept
    obtain ⟨id, _, _, rfl⟩ := mem_sharedStats.mp shared
    obtain ⟨judgedB, judgedC⟩ := (scored_iff id).mp both
    simp only [settleCase, stats] at holds
    exact ⟨id, judgedB, judgedC, holds⟩
  · rintro ⟨id, judgedB, judgedC, holds⟩
    have shared : (caseTrialStats id (rowsOf b id) opts.baselineOf,
        caseTrialStats id (rowsOf c id) opts.candidateOf) ∈ sharedStats b c opts :=
      mem_sharedStats.mpr ⟨id, judgedB.ne_nil, judgedC.ne_nil, rfl⟩
    have tested := List.mem_map_of_mem (f := fun pair =>
      testCase tests (opts.zThreshold.getD (196 / 100)) pair.1 pair.2)
      (List.mem_filter.mpr ⟨shared, (scored_iff id).mpr ⟨judgedB, judgedC⟩⟩)
    obtain ⟨index, lt, eq⟩ := List.getElem_of_mem tested
    have placed := List.mk_mem_zipIdx_iff_getElem?.mpr (List.getElem?_eq_some_iff.mpr ⟨lt, eq⟩)
    refine ⟨⟨_, index⟩, placed, ?_⟩
    simp only [settleCase, stats]
    exact holds

end Everdict.Scorecard
