import Everdict.Scorecard.Diff

/-!
# The release gate

`evaluateGate` derives one decision from a diff.  The refusals come first: an
unrestorable policy, a confound, an unverified identity, nothing shared.  Then a
critical failure blocks, an incomplete comparison is withheld, and only what is
left is arithmetic.  A reason keeps its kind and its counts; the sentence that
words it for a reader is left out.

`evaluateGate_pass_iff` says exactly when the gate decides `pass`.
-/

namespace Everdict.Scorecard

/-! ## What rides along with a diff -/

structure TrialCaseDelta where
  caseId : String
  baselineRate : ℚ
  candidateRate : ℚ
  fdrSuppressed : Option Bool := none
  deriving DecidableEq

structure TrialDiff where
  fdrAlpha : Option ℚ := none
  cases : List TrialCaseDelta
  regressions : List TrialCaseDelta
  improvements : List TrialCaseDelta
  deriving DecidableEq

inductive ExperimentAxis where
  | datasetContent
  | gradingPlan
  | judgeSet
  | harnessModel
  | executionWorld
  | environment
  deriving DecidableEq

/-- Which axes of the experiment verifiably differ, and which nobody can verify. -/
structure ExperimentIdentity where
  confounds : List ExperimentAxis
  unverified : List ExperimentAxis
  deriving DecidableEq

structure MeasurementCoverage where
  scores : Nat
  unmeasured : Nat
  unmeasuredFraction : Option ℚ
  deriving DecidableEq

structure PolicyMismatch where
  baseline : VerdictPolicyRef
  candidate : VerdictPolicyRef
  deriving DecidableEq

structure PolicyUnresolvable where
  baseline : Option VerdictPolicyRef
  candidate : Option VerdictPolicyRef
  deriving DecidableEq

structure CoverageSides where
  baseline : MeasurementCoverage
  candidate : MeasurementCoverage
  deriving DecidableEq

structure GateInput extends ScorecardDiff where
  trials : Option TrialDiff := none
  policyMismatch : Option PolicyMismatch := none
  policyUnresolvable : Option PolicyUnresolvable := none
  experiment : Option ExperimentIdentity := none
  coverage : Option CoverageSides := none
  criticalCases : Option (List CaseMatcher) := none
  deriving DecidableEq

/-! ## Policy and decision -/

inductive ComparabilityMode where
  | requireFull
  | allowPartial
  deriving DecidableEq

structure GatePolicy where
  maxRegressions : Nat
  comparability : Option ComparabilityMode := none
  maxMissingCases : Option Nat := none
  maxMissingFraction : Option ℚ := none
  maxMetricLossFraction : Option ℚ := none
  allowMetricKindChange : Option Bool := none
  allowConfounds : Option (List ExperimentAxis) := none
  allowUnverifiedIdentity : Option Bool := none
  maxUnmeasuredFraction : Option ℚ := none
  deriving DecidableEq

def DEFAULT_COMPARABILITY : ComparabilityMode := .requireFull

inductive GateReasonKind where
  | regression
  | trialRegression
  | policyMismatch
  | policyUnresolvable
  | noSharedCases
  | kindChanged
  | confounded
  | identityUnverified
  | criticalCaseFailed
  | missingCases
  | missingMetrics
  | unmeasuredEvidence
  deriving DecidableEq

structure GateReason where
  kind : GateReasonKind
  caseId : Option String := none
  metric : Option String := none
  count : Option Nat := none
  fraction : Option ℚ := none
  deriving DecidableEq

inductive Decision where
  | pass
  | block
  | blockedMissing
  | notComparable
  deriving DecidableEq

structure GateEvidence where
  comparability : Comparability
  missingCases : Nat
  trialsGated : Bool
  missingFraction : Option ℚ
  unmeasuredFraction : Option ℚ
  regressions : Option Nat := none
  improvements : Option Nat := none
  criticalFailures : Option Nat := none
  suppressedByFdr : Option Nat := none
  deriving DecidableEq

structure GateEvaluation where
  decision : Decision
  reasons : List GateReason
  evidence : GateEvidence
  deriving DecidableEq

/-! ## The structural half of the evidence -/

/-- The share of the baseline's cases that the candidate never ran. -/
def missingFraction (diff : GateInput) : Option ℚ :=
  if diff.overlap.baselineCases > 0 then
    some (diff.missing.casesOnlyInBaseline.length / diff.overlap.baselineCases)
  else none

/-- A comparison is only as measured as its weaker half. -/
def worstUnmeasuredFraction (coverage : Option CoverageSides) : Option ℚ :=
  coverage.bind fun sides =>
    match sides.baseline.unmeasuredFraction, sides.candidate.unmeasuredFraction with
    | some b, some c => some (max b c)
    | some b, none => some b
    | none, c => c

/-- One-sided cases, in both directions. -/
def missingCases (diff : GateInput) : Nat :=
  diff.missing.casesOnlyInBaseline.length + diff.missing.casesOnlyInCandidate.length

/-- The columns the comparison lost: one-sided metrics and changed kinds. -/
def missingMetrics (diff : GateInput) : Nat :=
  diff.missing.metricsOnlyInBaseline.length + diff.missing.metricsOnlyInCandidate.length
    + diff.incomparable.length

def structural (diff : GateInput) : GateEvidence where
  comparability := diff.comparability
  missingCases := missingCases diff
  trialsGated := diff.trials.isSome
  missingFraction := missingFraction diff
  unmeasuredFraction := worstUnmeasuredFraction diff.coverage

/-! ## The reasons of a decision -/

def isCritical (matchers : List CaseMatcher) (caseId : String) : Bool :=
  matchers.any fun m => caseMatches m caseId

def criticalReason (caseId : String) : GateReason :=
  { kind := .criticalCaseFailed, caseId := some caseId }

/-- What broke of the cases declared critical: absent, collapsed, or flipped. -/
def criticalReasons (diff : GateInput) : List GateReason :=
  let matchers := diff.criticalCases.getD []
  let absent := diff.missing.casesOnlyInBaseline.filter (isCritical matchers)
  let broken := match diff.trials with
    | some trials =>
        (trials.cases.filter fun c =>
          isCritical matchers c.caseId && c.candidateRate ≤ 0 && c.baselineRate > 0).map
            TrialCaseDelta.caseId
    | none =>
        (diff.caseTransitions.filter fun t =>
          t.change = .broke && isCritical matchers t.caseId).map CaseTransition.caseId
  (absent ++ broken).map criticalReason

structure CoverageLoss where
  metric : String
  baselineFraction : ℚ
  candidateFraction : ℚ
  loss : ℚ
  deriving DecidableEq

def lossOf (m : MetricCoverage) : CoverageLoss :=
  let baselineFraction := fractionOf m.baselineMeasured m.baselineCases
  let candidateFraction := fractionOf m.candidateMeasured m.candidateCases
  { metric := m.metric, baselineFraction, candidateFraction
    loss :=
      if baselineFraction > 0 then max 0 (1 - candidateFraction / baselineFraction) else 0 }

/-- The metrics that the candidate measured on a smaller share of its rows. -/
def metricCoverageLosses (diff : GateInput) : List CoverageLoss :=
  ((diff.metricCoverage.filter fun m => m.baselineMeasured > 0).map lossOf).filter fun m =>
    m.loss > COVERAGE_EPS

/-- `a > limit`, where an unstated limit is not a limit. -/
def exceeds {α : Type*} [LT α] [DecidableLT α] (a : Option α) (limit : Option α) : Bool :=
  match a, limit with
  | some a, some limit => limit < a
  | _, _ => false

def reasonIf (condition : Bool) (reason : GateReason) : List GateReason :=
  if condition then [reason] else []

/-- The reasons for which a comparison is too incomplete to decide on. -/
def missingnessReasons (diff : GateInput) (policy : GatePolicy) : List GateReason :=
  let losses := metricCoverageLosses diff
  let fraction := missingFraction diff
  let unmeasured := worstUnmeasuredFraction diff.coverage
  let incomplete :=
    if diff.comparability ≠ .partly then []
    else
      match policy.comparability.getD DEFAULT_COMPARABILITY with
      | .requireFull =>
          reasonIf (missingCases diff > 0)
              { kind := .missingCases, count := some (missingCases diff), fraction }
            ++ reasonIf (missingMetrics diff > 0)
              { kind := .missingMetrics, count := some (missingMetrics diff) }
            ++ reasonIf (losses.length > 0)
              { kind := .missingMetrics, count := some losses.length }
      | .allowPartial =>
          let overLoss := losses.filter fun m => exceeds (some m.loss) policy.maxMetricLossFraction
          reasonIf (exceeds (some (missingCases diff)) policy.maxMissingCases
                || exceeds fraction policy.maxMissingFraction)
              { kind := .missingCases, count := some (missingCases diff), fraction }
            ++ reasonIf (overLoss.length > 0)
              { kind := .missingMetrics, count := some overLoss.length }
            ++ reasonIf (diff.incomparable.length > 0 && policy.allowMetricKindChange ≠ some true)
              { kind := .kindChanged, count := some diff.incomparable.length }
  incomplete ++ reasonIf (exceeds unmeasured policy.maxUnmeasuredFraction)
    { kind := .unmeasuredEvidence, fraction := unmeasured }

/-! ## The decision -/

def confounds (diff : GateInput) : List ExperimentAxis :=
  (diff.experiment.map ExperimentIdentity.confounds).getD []

def refusedConfounds (diff : GateInput) (policy : GatePolicy) : List ExperimentAxis :=
  (confounds diff).filter fun axis => axis ∉ policy.allowConfounds.getD []

def unverifiedIdentity (diff : GateInput) : List ExperimentAxis :=
  (diff.experiment.map ExperimentIdentity.unverified).getD []

/-- One reason of a kind for each axis. -/
def axisReasons (kind : GateReasonKind) (axes : List ExperimentAxis) : List GateReason :=
  axes.map fun _ => { kind }

def brokeCases (diff : GateInput) : List CaseTransition :=
  diff.caseTransitions.filter fun t => t.change = .broke

def fixedCases (diff : GateInput) : List CaseTransition :=
  diff.caseTransitions.filter fun t => t.change = .fixed

/-- The cases that regressed: gated by trials where trials rode along. -/
def regressionReasons (diff : GateInput) : List GateReason :=
  match diff.trials with
  | some trials =>
      trials.regressions.map fun r => { kind := .trialRegression, caseId := some r.caseId }
  | none => (brokeCases diff).map fun t => { kind := .regression, caseId := some t.caseId }

def kindReasons (diff : GateInput) : List GateReason :=
  diff.incomparable.map fun metric => { kind := .kindChanged, metric := some metric }

def isRegression (reason : GateReason) : Bool :=
  reason.kind = .regression || reason.kind = .trialRegression

def gateEvidence (diff : GateInput) : GateEvidence :=
  { structural diff with
    regressions := some (match diff.trials with
      | some trials => trials.regressions.length
      | none => (brokeCases diff).length)
    improvements := some (match diff.trials with
      | some trials => trials.improvements.length
      | none => (fixedCases diff).length)
    criticalFailures := diff.criticalCases.map fun _ => (criticalReasons diff).length
    suppressedByFdr := diff.trials.bind fun trials => trials.fdrAlpha.map fun _ =>
      (trials.cases.filter fun c => c.fdrSuppressed = some true).length }

def evaluateGate (diff : GateInput) (policy : GatePolicy) : GateEvaluation :=
  let refused := { structural diff with comparability := .none }
  if diff.policyUnresolvable ≠ none then ⟨.notComparable, [{ kind := .policyUnresolvable }], refused⟩
  else if refusedConfounds diff policy ≠ [] then
    ⟨.notComparable, axisReasons .confounded (refusedConfounds diff policy), refused⟩
  else if unverifiedIdentity diff ≠ [] ∧ policy.allowUnverifiedIdentity ≠ some true then
    ⟨.notComparable, axisReasons .identityUnverified (unverifiedIdentity diff), refused⟩
  else if diff.comparability = .none then
    let kind := if diff.policyMismatch ≠ none then .policyMismatch else .noSharedCases
    ⟨.notComparable, [{ kind }], structural diff⟩
  else
    let reasons := axisReasons .confounded (confounds diff)
      ++ axisReasons .identityUnverified (unverifiedIdentity diff)
      ++ regressionReasons diff ++ kindReasons diff
    let critical := criticalReasons diff
    let withheld := missingnessReasons diff policy
    let blocking := (reasons.filter isRegression).length
    if critical ≠ [] then ⟨.block, critical ++ withheld ++ reasons, gateEvidence diff⟩
    else if withheld ≠ [] then ⟨.blockedMissing, withheld ++ reasons, gateEvidence diff⟩
    else if blocking > policy.maxRegressions then ⟨.block, reasons, gateEvidence diff⟩
    else ⟨.pass, reasons, gateEvidence diff⟩

/-! ## When the gate passes -/

section Pass

variable {diff : GateInput} {policy : GatePolicy}

/-- Everything the gate asks of a comparison before it decides `pass`. -/
structure Passes (diff : GateInput) (policy : GatePolicy) : Prop where
  resolved : diff.policyUnresolvable = none
  unconfounded : refusedConfounds diff policy = []
  verified : unverifiedIdentity diff = [] ∨ policy.allowUnverifiedIdentity = some true
  comparable : diff.comparability ≠ .none
  uncritical : criticalReasons diff = []
  complete : missingnessReasons diff policy = []
  regressions : (regressionReasons diff).length ≤ policy.maxRegressions

theorem axisReasons_regressions {kind : GateReasonKind} (other : isRegression { kind } = false)
    (axes : List ExperimentAxis) : (axisReasons kind axes).filter isRegression = [] := by
  simp [axisReasons, other]

theorem regressionReasons_regressions :
    (regressionReasons diff).filter isRegression = regressionReasons diff := by
  rw [List.filter_eq_self]
  intro reason mem
  unfold regressionReasons at mem
  split at mem
  all_goals
    obtain ⟨_, _, rfl⟩ := List.mem_map.mp mem
    rfl

/-- Of all the reasons only the regressions block. -/
theorem blocking_eq (confounded unverified : List ExperimentAxis) :
    ((axisReasons .confounded confounded ++ axisReasons .identityUnverified unverified
      ++ regressionReasons diff ++ kindReasons diff).filter isRegression).length
      = (regressionReasons diff).length := by
  have kinds : (kindReasons diff).filter isRegression = [] := by
    simp [kindReasons, List.filter_eq_nil_iff, isRegression]
  rw [List.filter_append, List.filter_append, List.filter_append,
    axisReasons_regressions rfl, axisReasons_regressions rfl, kinds,
    regressionReasons_regressions]
  simp

/-- The gate decides `pass` exactly where every question is answered. -/
theorem evaluateGate_pass_iff :
    (evaluateGate diff policy).decision = .pass ↔ Passes diff policy := by
  unfold evaluateGate
  simp only [blocking_eq]
  constructor
  · intro pass
    split at pass
    · exact absurd pass nofun
    next resolved =>
    split at pass
    · exact absurd pass nofun
    next unconfounded =>
    split at pass
    · exact absurd pass nofun
    next verified =>
    split at pass
    · exact absurd pass nofun
    next comparable =>
    split at pass
    · exact absurd pass nofun
    next uncritical =>
    split at pass
    · exact absurd pass nofun
    next complete =>
    split at pass
    · exact absurd pass nofun
    next regressions =>
    have verified : unverifiedIdentity diff = [] ∨ policy.allowUnverifiedIdentity = some true := by
      by_contra neither
      exact verified (not_or.mp neither)
    exact ⟨not_not.mp resolved, not_not.mp unconfounded, verified, comparable,
      not_not.mp uncritical, not_not.mp complete, Nat.le_of_not_lt regressions⟩
  · intro h
    have verified : ¬(unverifiedIdentity diff ≠ [] ∧ policy.allowUnverifiedIdentity ≠ some true) :=
      fun both => h.verified.elim both.1 both.2
    rw [if_neg (not_not.mpr h.resolved), if_neg (not_not.mpr h.unconfounded), if_neg verified,
      if_neg h.comparable, if_neg (not_not.mpr h.uncritical), if_neg (not_not.mpr h.complete),
      if_neg (Nat.not_lt.mpr h.regressions)]

end Pass

end Everdict.Scorecard
