import Mathlib.Data.Rat.Defs
import Everdict.Text

/-!
# Scores, cases and verdict policies

The documents that the verdict engine, the diff and the gate read.  Numbers are
rational: no modelled function depends on rounding.  Of a score only the fields
that reach a verdict, a summary or a diff are kept.
-/

namespace Everdict

/-! ## Scores -/

inductive ProducerKind where
  | grader
  | judge
  deriving DecidableEq

def ProducerKind.name : ProducerKind → String
  | .grader => "grader"
  | .judge => "judge"

structure Producer where
  kind : ProducerKind
  id : String
  deriving DecidableEq

structure MeasurementIdentity where
  producer : Producer
  metric : String
  criterion : Option String := none
  deriving DecidableEq

structure ScoreIdentity where
  measurement : Option MeasurementIdentity := none
  graderId : String
  metric : String
  deriving DecidableEq

structure MeasuredScore extends ScoreIdentity where
  value : ℚ
  pass : Option Bool := none
  label : Option String := none
  deriving DecidableEq

/-- A grader that died or was skipped, and one that broke the contract, carry no
number: only a measured score does. -/
inductive Score where
  | measured (score : MeasuredScore)
  | unmeasured (identity : ScoreIdentity)
  | invalid (identity : ScoreIdentity)
  deriving DecidableEq

def Score.metric : Score → String
  | .measured score => score.metric
  | .unmeasured identity => identity.metric
  | .invalid identity => identity.metric

/-- `isMeasured`, with the narrowing it performs. -/
def Score.measured? : Score → Option MeasuredScore
  | .measured score => some score
  | .unmeasured _ => none
  | .invalid _ => none

def measuredScores (scores : List Score) : List MeasuredScore := scores.filterMap Score.measured?

@[simp]
theorem mem_measuredScores {scores : List Score} {s : MeasuredScore} :
    s ∈ measuredScores scores ↔ Score.measured s ∈ scores := by
  simp only [measuredScores, List.mem_filterMap]
  constructor
  · rintro ⟨score, mem, eq⟩
    cases score with
    | measured score =>
        obtain rfl : score = s := by simpa [Score.measured?] using eq
        exact mem
    | unmeasured identity => cases eq
    | invalid identity => cases eq
  · exact fun mem => ⟨_, mem, rfl⟩

/-! ## Cases -/

inductive FailureStage where
  | dispatch
  | install
  | run
  | collect
  | grade
  deriving DecidableEq

structure CaseFailure where
  stage : FailureStage
  code : String
  deriving DecidableEq

structure CaseResult where
  caseId : String
  trial : Option Nat := none
  scores : List Score
  failure : Option CaseFailure := none
  deriving DecidableEq

structure Scorecard where
  harness : String
  results : List CaseResult
  deriving DecidableEq

/-! ## Verdict policies -/

inductive MetricAuthority where
  | groundTruth
  | objective
  | judge
  | observational
  deriving DecidableEq

/-- The rungs that decide. -/
inductive DecidingAuthority where
  | groundTruth
  | objective
  | judge
  deriving DecidableEq

def DecidingAuthority.authority : DecidingAuthority → MetricAuthority
  | .groundTruth => .groundTruth
  | .objective => .objective
  | .judge => .judge

inductive VerdictAggregation where
  | priority
  | all
  | any
  | majority
  deriving DecidableEq

inductive MetricMatcher where
  | metric (name : String)
  | stem (stem : String) (segments : Option Nat)
  deriving DecidableEq

def metricMatches (matcher : MetricMatcher) (metric : String) : Bool :=
  match matcher with
  | .metric name => name = metric
  | .stem stem segments =>
      Text.startsWith metric stem
        && segments.all fun segments => Text.segments metric ':' = segments

inductive CaseMatcher where
  | caseId (id : String)
  | stem (stem : String)
  deriving DecidableEq

def caseMatches (matcher : CaseMatcher) (caseId : String) : Bool :=
  match matcher with
  | .caseId id => id = caseId
  | .stem stem => Text.startsWith caseId stem

inductive CriterionMatcher where
  | overall
  | any
  | id (id : String)
  deriving DecidableEq

structure ProducerMatcher where
  kind : ProducerKind
  id : Option String := none
  deriving DecidableEq

inductive Direction where
  | higherIsBetter
  | lowerIsBetter
  | neutral
  deriving DecidableEq

inductive VerdictRole where
  | required
  | supporting
  | diagnostic
  | excluded
  deriving DecidableEq

inductive MissingPolicy where
  | invalidateCase
  | excludeMetric
  deriving DecidableEq

structure MetricDefinition where
  matcher : MetricMatcher
  producer : Option ProducerMatcher := none
  criterion : Option CriterionMatcher := none
  authority : MetricAuthority
  direction : Option Direction := none
  verdictRole : Option VerdictRole := none
  missingPolicy : Option MissingPolicy := none
  deriving DecidableEq

/-- An order of the deciding rungs, each of them once. -/
structure AuthorityOrder where
  order : List DecidingAuthority
  length : order.length = 3
  nodup : order.Nodup
  deriving DecidableEq

inductive MeasurementScheme where
  | structuredV1
  deriving DecidableEq

structure Rungs where
  groundTruth : VerdictAggregation
  objective : VerdictAggregation
  judge : VerdictAggregation
  deriving DecidableEq

def Rungs.of (rungs : Rungs) : DecidingAuthority → VerdictAggregation
  | .groundTruth => rungs.groundTruth
  | .objective => rungs.objective
  | .judge => rungs.judge

structure VerdictPolicy where
  measurementIdentity : Option MeasurementScheme := none
  authorityOrder : Option AuthorityOrder := none
  id : String
  version : String
  /-- Declaration order is the priority order inside a `priority` rung. -/
  metrics : List MetricDefinition
  rungs : Rungs
  /-- Absent is the source's `"none"`: undeclared metrics never decide. -/
  fallback : Option VerdictAggregation
  criticalCases : Option (List CaseMatcher) := none
  deriving DecidableEq

structure VerdictPolicyRef where
  id : String
  version : String
  digest : String
  deriving DecidableEq

end Everdict
