import Everdict.Table
import Everdict.Contracts.Score

/-!
# The verdict of a case

`evaluateVerdict` evaluates the scores of a case against a declared policy.  The
duplicates of a metric combine first (`dedupeByMetric`); then the first rung, in
the order of authority, that has a deciding measurement settles the case.  The
content digests that the basis of a verdict carries for its audit are left out.
-/

namespace Everdict.Scorecard

def PRE_OUTCOME_STAGES : List FailureStage := [.dispatch, .install, .run]

/-- Did the case never produce a legitimate outcome: cancelled at any stage, or
dead before one? -/
def noOutcome (failure : Option CaseFailure) : Bool :=
  failure.any fun f => f.code = "CANCELLED" || f.stage ∈ PRE_OUTCOME_STAGES

/-- One deciding value of a metric. -/
structure Decider where
  metric : String
  graderId : String
  pass : Bool
  measurement : Option MeasurementIdentity := none
  deriving DecidableEq

inductive VerdictAuthority where
  | rung (authority : DecidingAuthority)
  | fallback
  deriving DecidableEq

structure VerdictBasis where
  authority : VerdictAuthority
  aggregation : VerdictAggregation
  deciders : List Decider
  deriving DecidableEq

structure VerdictEvaluation where
  verdict : Option Bool := none
  basis : Option VerdictBasis := none
  /-- The required metric that had no measurement. -/
  invalidated : Option String := none
  deriving DecidableEq

/-! ## One value for each metric -/

/-- The key under which duplicates combine. -/
def dedupeKey (measurement : Option MeasurementIdentity) (metric : String) : String :=
  match measurement with
  | some m =>
      Text.jsonArray [Text.json m.producer.kind.name, Text.json m.producer.id,
        Text.json m.metric, (m.criterion.map Text.json).getD "null"]
  | none => metric

def dedupeStep (structured : Bool) (grouped : Table String Decider) (score : Score) :
    Table String Decider :=
  match score.measured? with
  | none => grouped
  | some score =>
      match score.pass with
      | none => grouped
      | some pass =>
          let measurement := if structured then score.measurement else none
          let key := dedupeKey measurement score.metric
          match grouped.get key with
          | some previous =>
              -- attribution follows the decision: the first grader that fails the metric
              if !pass && previous.pass then
                grouped.set key { previous with pass := false, graderId := score.graderId }
              else grouped
          | none =>
              grouped.set key
                { metric := score.metric, graderId := score.graderId, pass, measurement }

def dedupeByMetric (scores : List Score) (structured : Bool) : List Decider :=
  (scores.foldl (dedupeStep structured) .empty).values

/-! ## The definition of a metric -/

def ProducerMatcher.covers (matcher : ProducerMatcher) (producer : Producer) : Bool :=
  matcher.kind = producer.kind && matcher.id.all fun id => id = producer.id

def CriterionMatcher.covers (matcher : CriterionMatcher) (criterion : Option String) : Bool :=
  match matcher with
  | .overall => criterion = none
  | .any => criterion ≠ none
  | .id id => some id = criterion

def definitionMatches (definition : MetricDefinition) (metric : String)
    (measurement : Option MeasurementIdentity) (structured : Bool) : Bool :=
  match if structured then measurement else none with
  | none =>
      definition.producer = none && definition.criterion = none
        && metricMatches definition.matcher metric
  | some m =>
      (definition.producer.all fun matcher => ProducerMatcher.covers matcher m.producer)
        && (definition.criterion.all fun matcher => CriterionMatcher.covers matcher m.criterion)
        && metricMatches definition.matcher m.metric

def Decider.matches (c : Decider) (structured : Bool) (definition : MetricDefinition) : Bool :=
  definitionMatches definition c.metric c.measurement structured

/-! ## Combining the deciders of a rung -/

/-- The deciders of a rung combined; the caller has at least one. -/
def combine (aggregation : VerdictAggregation) (first : Decider) (rest : List Decider) : Bool :=
  let deciders := first :: rest
  match aggregation with
  | .priority => first.pass
  | .all => deciders.all Decider.pass
  | .any => deciders.any Decider.pass
  | .majority => (deciders.filter Decider.pass).length * 2 > deciders.length

/-- The first required metric without a measurement whose absence invalidates. -/
def requiredMissing (policy : VerdictPolicy) (measured : List MeasuredScore)
    (structured : Bool) : Option MetricDefinition :=
  policy.metrics.find? fun d =>
    d.verdictRole = some .required
      && d.missingPolicy.getD .invalidateCase = .invalidateCase
      && !measured.any fun s => definitionMatches d s.metric s.measurement structured

/-- The name under which an invalidation reports a definition. -/
def MetricDefinition.reported (definition : MetricDefinition) : String :=
  match definition.matcher with
  | .metric name => name
  | .stem stem _ => stem ++ "*"

/-- May this decider decide?  Diagnostic and excluded metrics never do. -/
def isCandidate (policy : VerdictPolicy) (structured : Bool) (c : Decider) : Bool :=
  let role := (policy.metrics.find? (c.matches structured)).bind MetricDefinition.verdictRole
  role ≠ some .diagnostic && role ≠ some .excluded

/-- The index of the first definition that covers a decider. -/
def matched (policy : VerdictPolicy) (structured : Bool) (c : Decider) : Option Nat :=
  policy.metrics.findIdx? (c.matches structured)

/-- The deciders of a rung in the order of their definitions; the sort is stable. -/
def rungDeciders (policy : VerdictPolicy) (structured : Bool) (candidates : List Decider)
    (authority : DecidingAuthority) : List Decider :=
  (candidates.filter fun c =>
    (matched policy structured c).any fun idx =>
      (policy.metrics[idx]?).map MetricDefinition.authority = some authority.authority).insertionSort
    fun a b => (matched policy structured a).getD 0 ≤ (matched policy structured b).getD 0

def DEFAULT_AUTHORITY_ORDER : List DecidingAuthority := [.groundTruth, .objective, .judge]

/-- The first rung with a deciding measurement settles the case. -/
def decideRungs (policy : VerdictPolicy) (structured : Bool) (candidates : List Decider) :
    List DecidingAuthority → Option VerdictEvaluation
  | [] => none
  | authority :: rest =>
      match rungDeciders policy structured candidates authority with
      | [] => decideRungs policy structured candidates rest
      | first :: others =>
          let aggregation := policy.rungs.of authority
          if structured && aggregation = .priority then
            -- priority selects a definition: its producers still have to agree
            let selected := (first :: others).filter fun c =>
              matched policy structured c = matched policy structured first
            some
              { verdict := some (selected.all Decider.pass)
                basis := some ⟨.rung authority, aggregation, selected⟩ }
          else
            some
              { verdict := some (combine aggregation first others)
                basis := some ⟨.rung authority, aggregation, first :: others⟩ }

/-- No rung decided: the metrics that the policy has never seen combine. -/
def decideFallback (policy : VerdictPolicy) (structured : Bool) (candidates : List Decider) :
    VerdictEvaluation :=
  match policy.fallback with
  | none => {}
  | some aggregation =>
      match candidates.filter fun c => matched policy structured c = none with
      | [] => {}
      | first :: rest =>
          { verdict := some (combine aggregation first rest)
            basis := some ⟨.fallback, aggregation, first :: rest⟩ }

/-- Do the scores of this policy's records carry structured coordinates? -/
def isStructured (policy : VerdictPolicy) : Bool :=
  policy.measurementIdentity = some .structuredV1

def evaluateVerdict (scores : List Score) (failure : Option CaseFailure) (policy : VerdictPolicy) :
    VerdictEvaluation :=
  if noOutcome failure then {}
  else
    let structured := isStructured policy
    match requiredMissing policy (measuredScores scores) structured with
    | some definition => { invalidated := some (MetricDefinition.reported definition) }
    | none =>
        let candidates :=
          (dedupeByMetric scores structured).filter (isCandidate policy structured)
        let order := (policy.authorityOrder.map AuthorityOrder.order).getD DEFAULT_AUTHORITY_ORDER
        match decideRungs policy structured candidates order with
        | some evaluation => evaluation
        | none => decideFallback policy structured candidates

def caseVerdict (result : CaseResult) (policy : VerdictPolicy) : Option Bool :=
  (evaluateVerdict result.scores result.failure policy).verdict

/-! ## The historical authority ladder -/

/-- The ladder of version 1.1.0.  Its order is the priority order of a rung. -/
def DEFAULT_VERDICT_POLICY_V11 : VerdictPolicy where
  id := "authority-ladder"
  version := "1.1.0"
  metrics :=
    [ { matcher := .metric "state", authority := .groundTruth },
      { matcher := .metric "tests_pass", authority := .groundTruth },
      { matcher := .metric "answer_match", authority := .objective },
      { matcher := .metric "url_matches", authority := .objective },
      { matcher := .metric "dom_contains", authority := .objective },
      { matcher := .metric "judge", authority := .judge },
      { matcher := .stem "judge:" (some 2), authority := .judge },
      { matcher := .stem "judge:" none, authority := .judge, verdictRole := some .diagnostic },
      { matcher := .metric "cost_usd", authority := .observational,
        direction := some .lowerIsBetter },
      { matcher := .metric "latency_ms", authority := .observational,
        direction := some .lowerIsBetter },
      { matcher := .metric "tool_calls", authority := .observational,
        direction := some .lowerIsBetter } ]
  rungs := { groundTruth := .priority, objective := .all, judge := .all }
  fallback := some .all

def DEFAULT_VERDICT_POLICY : VerdictPolicy :=
  { DEFAULT_VERDICT_POLICY_V11 with
    version := "2.0.0"
    measurementIdentity := some .structuredV1
    metrics :=
      [ { matcher := .metric "judge", criterion := some .overall, authority := .judge },
        { matcher := .metric "judge", criterion := some .any, authority := .judge,
          verdictRole := some .diagnostic } ] ++ DEFAULT_VERDICT_POLICY_V11.metrics }

end Everdict.Scorecard
