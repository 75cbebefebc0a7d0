import Everdict.Contracts.Score

/-!
# Who may produce which metric

The name of a metric carries its authority, so the right to write a name is kept apart
from the row that claims it.  The reserved names belong to the built-in graders that
measure them, the judge family to the judges; a declaration grants the other names
that it lists.  `forgedMetricReason` refuses a name to a producer, and
`measurementIdentityOf` gives the coordinates of a row from its producer alone.
-/

namespace Everdict.Submission

/-! ## The names that carry authority -/

def RESERVED_AUTHORITY_METRICS : List String :=
  ["state", "tests_pass", "answer_match", "url_matches", "dom_contains"]

def BUILTIN_GRADER_OWNED_METRICS : List (String × List String) :=
  [ ("tests-pass", ["tests_pass"]),
    ("reward-file", ["tests_pass"]),
    ("state-check", ["state"]),
    ("dom-contains", ["dom_contains"]),
    ("url-matches", ["url_matches"]),
    ("answer-match", ["answer_match"]) ]

def BUILTIN_JUDGE_GRADER_IDS : List String := ["judge"]

/-- A grader that the table does not know owns nothing. -/
def builtInOwnedMetrics (graderId : String) : List String :=
  (BUILTIN_GRADER_OWNED_METRICS.lookup graderId).getD []

def JUDGE_METRIC_ROOT : String := "judge"

def isJudgeFamilyMetric (metric : String) : Bool :=
  metric = JUDGE_METRIC_ROOT || Text.startsWith metric (JUDGE_METRIC_ROOT ++ ":")

/-- Is the metric the verdict of this judge, or one of its criteria? -/
def isJudgeMetricOf (metric judgeId : String) : Bool :=
  metric = JUDGE_METRIC_ROOT ++ ":" ++ judgeId
    || Text.startsWith metric (JUDGE_METRIC_ROOT ++ ":" ++ judgeId ++ ":")

def isConstitutionalMetric (metric : String) : Bool :=
  metric ∈ RESERVED_AUTHORITY_METRICS || isJudgeFamilyMetric metric

/-! ## Producers -/

/-- Who produced a score, as the collecting side knows it. -/
inductive ScoreProducer where
  | grader (id : String) (ownsMetrics : List String) (ownsJudgeVerdict : Bool)
      (namespacesJudgeCriteria : Bool)
  | judge (id : String)
  deriving DecidableEq

def ScoreProducer.owner : ScoreProducer → Producer
  | .grader id _ _ _ => ⟨.grader, id⟩
  | .judge id => ⟨.judge, id⟩

structure JudgeMetricShape where
  overall : String
  criterionStem : String
  deriving DecidableEq

/-- The name of the overall row of a producer, and what stands before its criteria. -/
def judgeMetricShapeOf : ScoreProducer → JudgeMetricShape
  | .judge id => ⟨JUDGE_METRIC_ROOT ++ ":" ++ id, JUDGE_METRIC_ROOT ++ ":" ++ id ++ ":"⟩
  | .grader id _ _ namespaces =>
      ⟨JUDGE_METRIC_ROOT,
        if namespaces then JUDGE_METRIC_ROOT ++ ":" ++ id ++ ":" else JUDGE_METRIC_ROOT ++ ":"⟩

/-- Why the producer may not emit the metric, if it may not. -/
def forgedMetricReason (metric : String) : ScoreProducer → Option String
  | .judge id =>
      let own := JUDGE_METRIC_ROOT ++ ":" ++ id
      if metric = own || Text.startsWith metric (own ++ ":") then none
      else
        some (s!"a judge may only produce its own metric family ('{own}' or "
          ++ s!"'{own}:<criterion>'); '{metric}' belongs to something else")
  | .grader _ ownsMetrics ownsJudgeVerdict _ =>
      if isJudgeFamilyMetric metric then
        if !ownsJudgeVerdict then
          some (s!"'{metric}' belongs to the judge family, which only a judge may produce — "
            ++ "a grader writing into it would forge a verdict and own rows a re-score cannot "
            ++ "replace")
        else none
      else if metric ∈ RESERVED_AUTHORITY_METRICS && metric ∉ ownsMetrics then
        some (s!"'{metric}' carries built-in verdict authority and belongs to the grader that "
          ++ "produces it; declaring an authority does not grant another producer's name — use "
          ++ "this grader's own metric name and declare `authority` for that")
      else none

def ScoreProducer.emitsJudgeFamily : ScoreProducer → Bool
  | .grader _ _ ownsJudgeVerdict _ => ownsJudgeVerdict
  | .judge _ => true

def measurementIdentityOf (metric : String) (producer : ScoreProducer) : MeasurementIdentity :=
  if !producer.emitsJudgeFamily || !isJudgeFamilyMetric metric then
    { producer := producer.owner, metric }
  else
    let shape := judgeMetricShapeOf producer
    if metric = shape.overall then { producer := producer.owner, metric := JUDGE_METRIC_ROOT }
    else
      -- a row off the declared shape keeps all that follows the root
      let criterion :=
        if Text.startsWith metric shape.criterionStem then
          Text.sliceAfter metric shape.criterionStem
        else Text.sliceAfter metric (JUDGE_METRIC_ROOT ++ ":")
      if criterion ≠ "" then
        { producer := producer.owner, metric := JUDGE_METRIC_ROOT, criterion := some criterion }
      else { producer := producer.owner, metric }

/-! ## Declarations -/

/-- A metric that a grader names, with its semantics. -/
structure MetricDeclaration where
  id : String
  named : id ≠ "" := by decide
  authority : Option MetricAuthority := none
  direction : Option Direction := none
  deriving DecidableEq

/-- The configuration of a grader, as far as it decides whether a grader is built and
under which id.  `none` is a slot that holds no text; `pattern` and `metric` are what
`String` makes of their slots. -/
structure GraderConfig where
  id : Option String := none
  language : Option String := none
  code : Option String := none
  entrypoint : Option String := none
  pattern : Option String := none
  metric : Option String := none
  deriving DecidableEq

/-- `id` selects the implementation; the `id` of the configuration renames the grader
that is built. -/
structure GraderSpec where
  id : String
  config : GraderConfig := {}
  authority : Option MetricAuthority := none
  direction : Option Direction := none
  metrics : List MetricDeclaration := []
  deriving DecidableEq

/-- The names that a declaration can grant: never one of the constitution. -/
def declaredOwnedMetrics (spec : GraderSpec) : List String :=
  (spec.metrics.map MetricDeclaration.id).filter fun id => !isConstitutionalMetric id

def declaredJudgeAuthority (spec : GraderSpec) : Bool := spec.authority = some .judge

def specNamespacesJudgeCriteria (spec : GraderSpec) : Bool := spec.id ∈ BUILTIN_JUDGE_GRADER_IDS

/-- What a settlement checks a submitted result against: the graders of the case, and
the ids of the judges that the platform applied. -/
structure SettleDeclaration where
  graders : List GraderSpec
  judges : List String
  deriving DecidableEq

/-- The declared grader that a row names, by its id or by its configured one. -/
def specProducing (graders : List GraderSpec) (graderId : String) : Option GraderSpec :=
  graders.find? fun g => g.id = graderId || g.config.id = some graderId

/-- The producer of a row, from the declaration alone. -/
def scoreProducer (declaration : SettleDeclaration) (graderId metric : String) : ScoreProducer :=
  let spec := specProducing declaration.graders graderId
  let registered := declaration.judges.find? fun id => id = graderId && isJudgeMetricOf metric id
  match registered, spec with
  | some id, none => .judge id
  | _, none => .grader graderId [] false false
  | _, some spec =>
      .grader graderId (builtInOwnedMetrics spec.id ++ declaredOwnedMetrics spec)
        (spec.id ∈ BUILTIN_JUDGE_GRADER_IDS || declaredJudgeAuthority spec)
        (specNamespacesJudgeCriteria spec)

end Everdict.Submission
