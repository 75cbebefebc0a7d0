import Mathlib.Algebra.Field.Rat
import Mathlib.Algebra.Order.Field.Rat
import Everdict.Scorecard.Verdict

/-!
# The diff of two scorecards

The projections that `diffScorecards` composes, each as the source computes it:
the summary of each metric, its coverage, the metric flips and the transitions
of the case verdicts, what is missing on either side, and how comparable the
two sides are.  The deltas are read through the directions of a policy.
-/

namespace Everdict.Scorecard

/-- The results that a summary and a coverage are counted from. -/
def outcomes (sc : Scorecard) : List CaseResult :=
  sc.results.filter fun r => !noOutcome r.failure

/-! ## The summary of a metric -/

structure LabelCount where
  label : String
  count : Nat
  deriving DecidableEq

structure MetricSummary where
  metric : String
  count : Nat
  mean : Option ℚ
  passRate : Option ℚ
  distribution : Option (List LabelCount)
  mode : Option String
  unmeasured : Option Nat
  deriving DecidableEq

structure MetricTally where
  values : List ℚ := []
  passes : List Bool := []
  labeled : List (String × ℚ) := []
  unmeasured : Nat := 0
  deriving DecidableEq

def MetricTally.add (tally : Option MetricTally) (score : Score) : MetricTally :=
  let m := tally.getD {}
  match score.measured? with
  | none => { m with unmeasured := m.unmeasured + 1 }
  | some s =>
      { m with
        values := m.values ++ [s.value]
        passes := m.passes ++ s.pass.toList
        labeled := m.labeled ++ (s.label.map fun label => (label, s.value)).toList }

/-- The tallies of a scorecard by metric: outcomes only. -/
def tallies (sc : Scorecard) : Table String MetricTally :=
  Table.group Score.metric MetricTally.add ((outcomes sc).flatMap CaseResult.scores)

/-- How often each label was given, in the order of first appearance. -/
def labelCounts (labeled : List (String × ℚ)) : List LabelCount :=
  (Table.group Prod.fst (fun n _ => n.getD 0 + 1) labeled).entries.map fun e => ⟨e.1, e.2⟩

/-- The ordering value of a label: the first one seen. -/
def ordinal (labeled : List (String × ℚ)) (label : String) : ℚ :=
  ((labeled.find? fun l => l.1 = label).map Prod.snd).getD 0

/-- The order of display: ordering value, then most frequent, then label. -/
def displayed (labeled : List (String × ℚ)) (a b : LabelCount) : Bool :=
  let ord := ordinal labeled
  ord a.label < ord b.label
    || ord a.label = ord b.label && (b.count < a.count
      || a.count = b.count && !Text.before b.label a.label)

/-- The order of the mode: most frequent, then ordering value, then label. -/
def ranked (labeled : List (String × ℚ)) (a b : LabelCount) : Bool :=
  let ord := ordinal labeled
  b.count < a.count
    || a.count = b.count && (ord a.label < ord b.label
      || ord a.label = ord b.label && !Text.before b.label a.label)

def MetricTally.summary (metric : String) (m : MetricTally) : MetricSummary where
  metric := metric
  count := m.values.length
  mean := if m.values.length > 0 then some (m.values.sum / m.values.length) else none
  passRate :=
    if m.passes.length > 0 then some ((m.passes.filter id).length / m.passes.length) else none
  distribution :=
    if m.labeled.length > 0 then
      some ((labelCounts m.labeled).insertionSort fun a b => displayed m.labeled a b = true)
    else none
  mode :=
    if m.labeled.length > 0 then
      (((labelCounts m.labeled).insertionSort fun a b =>
        ranked m.labeled a b = true).head?).map LabelCount.label
    else none
  unmeasured := if m.unmeasured > 0 then some m.unmeasured else none

def summarizeScorecard (sc : Scorecard) : List MetricSummary :=
  (tallies sc).entries.map fun e => e.2.summary e.1

/-! ## The coverage of a metric -/

structure MetricCoverage where
  metric : String
  baselineCases : Nat
  baselineMeasured : Nat
  candidateCases : Nat
  candidateMeasured : Nat
  deriving DecidableEq

/-- The metrics that a result measures, each of them once. -/
def measuredMetrics (r : CaseResult) : List String :=
  ((measuredScores r.scores).map fun s => s.metric).eraseDups

/-- How many outcome-bearing rows measured each metric. -/
def measuredBy (sc : Scorecard) : Table String Nat :=
  Table.group id (fun n _ => n.getD 0 + 1) ((outcomes sc).flatMap measuredMetrics)

def metricCoverage (baseline candidate : Scorecard) : List MetricCoverage :=
  let b := measuredBy baseline
  let c := measuredBy candidate
  let metrics := (b.entries.map Prod.fst ++ c.entries.map Prod.fst).eraseDups
  (Text.sort metrics).map fun metric =>
    { metric
      baselineCases := (outcomes baseline).length
      baselineMeasured := (b.get metric).getD 0
      candidateCases := (outcomes candidate).length
      candidateMeasured := (c.get metric).getD 0 }

/-- The share of a side's rows; nothing measured over no rows is a share of 0. -/
def fractionOf (measured cases : Nat) : ℚ := if cases > 0 then measured / cases else 0

def COVERAGE_EPS : ℚ := 1 / 1000000000

/-! ## The flips of a metric -/

inductive PassChange where
  | fixed
  | broke
  deriving DecidableEq

structure CaseDelta where
  caseId : String
  metric : String
  baseline : ℚ
  candidate : ℚ
  delta : ℚ
  passChange : PassChange
  deriving DecidableEq

/-- A trial of a case as one key. -/
def caseKey (caseId : String) (trial : Nat) : String := caseId ++ "#" ++ toString trial

def CaseResult.key (r : CaseResult) : String := caseKey r.caseId (r.trial.getD 0)

/-- Two values of one metric in one result combine as the verdict reads them:
unanimously, and the row that decided stands for both. -/
def combineDuplicate (previous : Option MeasuredScore) (s : MeasuredScore) : MeasuredScore :=
  match previous with
  | none => s
  | some previous =>
      let passes := previous.pass.toList ++ s.pass.toList
      let combined := if passes.length > 0 then some (passes.all id) else none
      let decider :=
        if combined = some false then (if previous.pass = some false then previous else s)
        else previous
      { decider with pass := combined.or decider.pass }

/-- The measured scores of a trial, one for each metric. -/
def scoreMap (sc : Scorecard) : Table String (String × Table String MeasuredScore) :=
  Table.group CaseResult.key
    (fun entry r =>
      let entry := entry.getD (r.caseId, .empty)
      (entry.1, (measuredScores r.scores).foldl
        (fun metrics s => metrics.set s.metric (combineDuplicate (metrics.get s.metric) s)) entry.2))
    sc.results

/-- The metrics whose pass changed between the sides, over shared trials. -/
def metricFlips (baseline candidate : Scorecard) : List CaseDelta :=
  let b := scoreMap baseline
  (scoreMap candidate).entries.flatMap fun (key, caseId, candidateMetrics) =>
    match b.get key with
    | none => []
    | some (_, baselineMetrics) =>
        candidateMetrics.entries.filterMap fun (metric, cs) =>
          (baselineMetrics.get metric).bind fun bs =>
            let flip passChange : CaseDelta :=
              { caseId, metric, baseline := bs.value, candidate := cs.value,
                delta := cs.value - bs.value, passChange }
            if bs.pass = some true ∧ cs.pass = some false then some (flip .broke)
            else if bs.pass = some false ∧ cs.pass = some true then some (flip .fixed)
            else none

/-! ## The transitions of the case verdicts -/

inductive CaseChange where
  | broke
  | fixed
  | same
  | unmeasured
  deriving DecidableEq

structure CaseTransition where
  caseId : String
  trial : Option Nat
  baseline : Option Bool
  candidate : Option Bool
  change : CaseChange
  deriving DecidableEq

/-- What became of a verdict.  A side without one makes no claim. -/
def changeOf (baseline candidate : Option Bool) : CaseChange :=
  match baseline, candidate with
  | none, _ => .unmeasured
  | some _, none => .unmeasured
  | some true, some false => .broke
  | some false, some true => .fixed
  | some true, some true => .same
  | some false, some false => .same

/-- The results of a scorecard by trial; the last row of a trial stands. -/
def byKey (sc : Scorecard) : Table String CaseResult :=
  Table.group CaseResult.key (fun _ r => r) sc.results

def caseTransitions (baseline candidate : Scorecard)
    (baselinePolicy candidatePolicy : VerdictPolicy) : List CaseTransition :=
  let b := byKey baseline
  (byKey candidate).entries.filterMap fun (key, cResult) =>
    (b.get key).map fun bResult =>
      let bv := caseVerdict bResult baselinePolicy
      let cv := caseVerdict cResult candidatePolicy
      { caseId := cResult.caseId, trial := cResult.trial, baseline := bv, candidate := cv,
        change := changeOf bv cv }

/-! ## The diff -/

inductive Reading where
  | improved
  | regressed
  | unchanged
  | unknown
  deriving DecidableEq

structure MetricDelta where
  metric : String
  baselineMean : ℚ
  candidateMean : ℚ
  delta : ℚ
  direction : Option Direction
  reading : Reading
  deriving DecidableEq

/-- A delta read through the direction that the policy declares. -/
def readingOf (direction : Option Direction) (delta : ℚ) : Reading :=
  if delta = 0 then .unchanged
  else
    match direction with
    | some .higherIsBetter => if delta > 0 then .improved else .regressed
    | some .lowerIsBetter => if delta < 0 then .improved else .regressed
    | some .neutral => .unknown
    | none => .unknown

def directionOf (policy : VerdictPolicy) (metric : String) : Option Direction :=
  (policy.metrics.find? fun d => metricMatches d.matcher metric).bind MetricDefinition.direction

structure DiffMissing where
  casesOnlyInBaseline : List String
  casesOnlyInCandidate : List String
  metricsOnlyInBaseline : List String
  metricsOnlyInCandidate : List String
  deriving DecidableEq

structure DiffOverlap where
  sharedCases : Nat
  baselineCases : Nat
  candidateCases : Nat
  deriving DecidableEq

inductive Side where
  | baseline
  | candidate
  | both
  deriving DecidableEq

inductive Comparability where
  | full
  | partly
  | none
  deriving DecidableEq

structure ScorecardDiff where
  baseline : String
  candidate : String
  metrics : List MetricDelta
  regressions : List CaseDelta
  improvements : List CaseDelta
  caseTransitions : List CaseTransition
  transitionsUnavailable : Option Side
  metricCoverage : List MetricCoverage
  missing : DiffMissing
  incomparable : List String
  overlap : DiffOverlap
  comparability : Comparability
  deriving DecidableEq

/-- The policy of a side, or a stamp that could not be restored. -/
inductive PolicySide where
  | policy (policy : VerdictPolicy)
  | unresolvable
  deriving DecidableEq

structure DiffOptions where
  policy : Option VerdictPolicy := none
  baselinePolicy : Option PolicySide := none
  candidatePolicy : Option PolicySide := none
  deriving DecidableEq

def caseIds (sc : Scorecard) : List String := (sc.results.map CaseResult.caseId).eraseDups

/-- The metrics with at least one measurement. -/
def metricNames (summary : List MetricSummary) : List String :=
  ((summary.filter fun s => s.count > 0).map MetricSummary.metric).eraseDups

/-- The elements of `xs` that `ys` lacks. -/
def onlyIn (xs ys : List String) : List String := xs.filter fun x => x ∉ ys

/-- The distribution marks a categorical summary. -/
def isCategorical (rows : List MetricSummary) (metric : String) : Bool :=
  ((rows.find? fun s => s.metric = metric).bind MetricSummary.distribution).isSome

def meanOf (rows : List MetricSummary) (metric : String) : ℚ :=
  ((rows.find? fun s => s.metric = metric).bind MetricSummary.mean).getD 0

/-- Is a metric of both sides measured on a different share of their rows? -/
def asymmetric (m : MetricCoverage) : Bool :=
  m.baselineMeasured > 0 && m.candidateMeasured > 0
    && |fractionOf m.baselineMeasured m.baselineCases
        - fractionOf m.candidateMeasured m.candidateCases| > COVERAGE_EPS

def transitionsOf (baseline candidate : Scorecard) : PolicySide → PolicySide → List CaseTransition
  | .policy bp, .policy cp => caseTransitions baseline candidate bp cp
  | .policy _, .unresolvable => []
  | .unresolvable, _ => []

def unavailableOf : PolicySide → PolicySide → Option Side
  | .policy _, .policy _ => none
  | .policy _, .unresolvable => some .candidate
  | .unresolvable, .policy _ => some .baseline
  | .unresolvable, .unresolvable => some .both

def diffScorecards (baseline candidate : Scorecard) (opts : DiffOptions) : ScorecardDiff :=
  let policy := opts.policy.getD DEFAULT_VERDICT_POLICY
  let flips := metricFlips baseline candidate
  let bp := opts.baselinePolicy.getD (.policy policy)
  let cp := opts.candidatePolicy.getD (.policy policy)
  let bCases := caseIds baseline
  let cCases := caseIds candidate
  let sumB := summarizeScorecard baseline
  let sumC := summarizeScorecard candidate
  let bMetricNames := metricNames sumB
  let cMetricNames := metricNames sumC
  let sharedNames := bMetricNames.filter fun m => m ∈ cMetricNames
  let incomparable := sharedNames.filter fun m => isCategorical sumB m ≠ isCategorical sumC m
  let shared := sharedNames.filter fun m => m ∉ incomparable
  let missing : DiffMissing :=
    { casesOnlyInBaseline := onlyIn bCases cCases
      casesOnlyInCandidate := onlyIn cCases bCases
      metricsOnlyInBaseline := onlyIn bMetricNames cMetricNames
      metricsOnlyInCandidate := onlyIn cMetricNames bMetricNames }
  let sharedCases := (bCases.filter fun id => id ∈ cCases).length
  let coverage := metricCoverage baseline candidate
  let anyMissing :=
    missing.casesOnlyInBaseline.length > 0 || missing.casesOnlyInCandidate.length > 0
      || missing.metricsOnlyInBaseline.length > 0 || missing.metricsOnlyInCandidate.length > 0
      || incomparable.length > 0 || coverage.any asymmetric
  { baseline := baseline.harness
    candidate := candidate.harness
    metrics := shared.map fun metric =>
      let delta := meanOf sumC metric - meanOf sumB metric
      { metric, baselineMean := meanOf sumB metric, candidateMean := meanOf sumC metric, delta
        direction := directionOf policy metric
        reading := readingOf (directionOf policy metric) delta }
    regressions := flips.filter fun d => d.passChange = .broke
    improvements := flips.filter fun d => d.passChange = .fixed
    caseTransitions := transitionsOf baseline candidate bp cp
    transitionsUnavailable := unavailableOf bp cp
    metricCoverage := coverage
    missing := missing
    incomparable := incomparable
    overlap := { sharedCases, baselineCases := bCases.length, candidateCases := cCases.length }
    comparability :=
      if sharedCases = 0 ∨ shared.length = 0 then .none
      else if anyMissing then .partly
      else .full }

end Everdict.Scorecard
