import Everdict.Scorecard.DecidingRows
import Everdict.Submission.Settlement

/-!
# Declarations in the policy of a batch

`composeVerdictPolicy` appends a definition for each metric that a grader declares with an
authority; `makeGraders` builds the graders that emit the rows.  A row is governed by a
declaration when the first definition that covers it is one that the declaration
composed (`governing`).
-/

namespace Everdict.Submission

open Scorecard

/-! ## Building the graders -/

/-- The `BadRequestError` of a specification that no grader can be built from. -/
structure BadRequest where
  grader : String
  pattern : Option String := none
  message : Option String := none
  deriving DecidableEq

def badRequest (grader message : String) : BadRequest := { grader, message := some message }

/-- A built grader, as far as the collecting side reads it. -/
structure Grader where
  id : String
  ownsMetrics : List String := []
  ownsJudgeVerdict : Bool := false
  namespacesJudgeCriteria : Bool := false
  deriving DecidableEq

/-- A slot whose text is not empty. -/
def truthy (slot : Option String) : Option String := slot.filter fun s => s ≠ ""

/-- A grader of this kind, under the id that the configuration gives. -/
def configured (s : GraderSpec) (kind : String) : Grader where
  id := (truthy s.config.id).getD kind
  ownsMetrics := builtInOwnedMetrics kind

def scriptGrader (s : GraderSpec) : Except BadRequest Grader :=
  if s.config.language ≠ some "python" ∧ s.config.language ≠ some "node" then
    .error (badRequest "script"
      "The script grader requires config.language: \"python\" | \"node\".")
  else if (truthy s.config.code).isNone && (truthy s.config.entrypoint).isNone then
    .error (badRequest (configured s "script").id
      ("The script grader requires config.code (inline source) or config.entrypoint "
        ++ "(a path in the environment)."))
  else .ok (configured s "script")

def textMetricGrader (validPattern : String → Bool) (s : GraderSpec) :
    Except BadRequest Grader :=
  let pattern := s.config.pattern.getD ""
  if pattern = "" then
    .error (badRequest "text-metric" "text-metric requires config.pattern.")
  else if s.config.metric.getD "" = "" then
    .error (badRequest "text-metric" "text-metric requires config.metric.")
  else if !validPattern pattern then
    .error { badRequest "text-metric" "config.pattern is not a valid regular expression." with
      pattern := some pattern }
  else .ok (configured s "text-metric")

def judgeGrader (judge : Bool) (s : GraderSpec) : Except BadRequest Grader :=
  if !judge then
    .error (badRequest "judge"
      "The judge grader requires Judge injection: makeGraders(specs, \x7b judge \x7d).")
  else
    .ok { id := s.config.id.getD "judge", ownsJudgeVerdict := true,
          namespacesJudgeCriteria := specNamespacesJudgeCriteria s }

/-- `judge` says whether a judge was injected, `validPattern` whether `RegExp` accepts. -/
def buildGrader (judge : Bool) (validPattern : String → Bool) (s : GraderSpec) :
    Except BadRequest Grader :=
  match s.id with
  | "tests-pass" => .ok { id := "tests-pass", ownsMetrics := builtInOwnedMetrics "tests-pass" }
  | "state-check" => .ok { id := "state-check", ownsMetrics := builtInOwnedMetrics "state-check" }
  | "command" => .ok (configured s "command")
  | "script-score" => .ok (configured s "script-score")
  | "script" => scriptGrader s
  | "reward-file" => .ok (configured s "reward-file")
  | "swe-bench" => .ok { id := "swe-bench", ownsMetrics := ["resolved"] }
  | "world-state" => .ok { id := "world-state" }
  | "steps" => .ok { id := "steps" }
  | "cost" => .ok { id := "cost" }
  | "latency" => .ok { id := "latency" }
  | "dom-contains" =>
      .ok { id := "dom-contains", ownsMetrics := builtInOwnedMetrics "dom-contains" }
  | "url-matches" => .ok { id := "url-matches", ownsMetrics := builtInOwnedMetrics "url-matches" }
  | "answer-match" =>
      .ok { id := "answer-match", ownsMetrics := builtInOwnedMetrics "answer-match" }
  | "store-state" => .ok { id := "store-state", ownsMetrics := ["store-state"] }
  | "text-metric" => textMetricGrader validPattern s
  | "judge" => judgeGrader judge s
  | _ => .error { grader := s.id }

def withDeclaredAuthority (grader : Grader) (spec : GraderSpec) : Grader :=
  let owned := declaredOwnedMetrics spec
  { grader with
    ownsMetrics := if owned.length > 0 then owned else grader.ownsMetrics
    ownsJudgeVerdict := declaredJudgeAuthority spec || grader.ownsJudgeVerdict }

def makeGraders (judge : Bool) (validPattern : String → Bool) (specs : List GraderSpec) :
    Except BadRequest (List Grader) :=
  specs.mapM fun s => do
    let grader ← buildGrader judge validPattern s
    return withDeclaredAuthority grader s

/-! ## Composing the policy -/

/-- The definition of one declared metric. -/
def declaredDefinition (base : VerdictPolicy) (spec : GraderSpec) (metric : String)
    (authority : MetricAuthority) (direction : Option Direction) : MetricDefinition where
  matcher := .metric metric
  producer :=
    if base.measurementIdentity.isSome then some { kind := .grader, id := some spec.id } else none
  authority := authority
  direction := direction

/-- What a specification adds: the metrics that it names, or else the one of its own id. -/
def declaredDefinitions (base : VerdictPolicy) (spec : GraderSpec) : List MetricDefinition :=
  if spec.metrics.length > 0 then
    spec.metrics.filterMap fun m => m.authority.bind fun authority =>
      if isConstitutionalMetric m.id then none
      else some (declaredDefinition base spec m.id authority m.direction)
  else
    (spec.authority.map fun authority =>
      declaredDefinition base spec spec.id authority spec.direction).toList

/-- `version` is the start of the digest of a policy document. -/
def composeVerdictPolicy (version : VerdictPolicy → String) (specs : List GraderSpec)
    (base : VerdictPolicy) (criticalCases : List CaseMatcher) : VerdictPolicy :=
  let additions := specs.flatMap (declaredDefinitions base)
  if additions.length = 0 ∧ criticalCases.length = 0 then base
  else
    let doc := { base with
      id := "composed"
      version := "0"
      metrics := base.metrics ++ additions
      criticalCases :=
        if criticalCases.length > 0 then some criticalCases else base.criticalCases }
    { doc with version := version doc }

theorem metrics_composeVerdictPolicy (version : VerdictPolicy → String)
    (specs : List GraderSpec) (base : VerdictPolicy) (criticalCases : List CaseMatcher) :
    (composeVerdictPolicy version specs base criticalCases).metrics =
      base.metrics ++ specs.flatMap (declaredDefinitions base) := by
  unfold composeVerdictPolicy
  dsimp only
  split
  · next nothing => rw [List.length_eq_zero_iff.mp nothing.1, List.append_nil]
  · rfl

theorem measurementIdentity_composeVerdictPolicy (version : VerdictPolicy → String)
    (specs : List GraderSpec) (base : VerdictPolicy) (criticalCases : List CaseMatcher) :
    (composeVerdictPolicy version specs base criticalCases).measurementIdentity =
      base.measurementIdentity := by
  unfold composeVerdictPolicy
  dsimp only
  split <;> rfl

/-! ## The declaration that governs a row -/

/-- The definitions that the specifications add, each with the place of its specification. -/
def declaredFrom (base : VerdictPolicy) (specs : List GraderSpec) :
    List (Nat × MetricDefinition) :=
  specs.zipIdx.flatMap fun e => (declaredDefinitions base e.1).map fun d => (e.2, d)

/-- The first definition of a policy that covers a row. -/
def firstMatch (policy : VerdictPolicy) (row : ScoreRow) : Option Nat :=
  policy.metrics.findIdx? fun d =>
    definitionMatches d row.metric row.measurement (isStructured policy)

/-- The declared definition that comes first among all that cover the row, with the place
of the specification it was composed from. -/
def governing (policy base : VerdictPolicy) (specs : List GraderSpec) (row : ScoreRow) :
    Option (Nat × MetricDefinition) :=
  (firstMatch policy row).bind fun k =>
    if k < base.metrics.length then none
    else (declaredFrom base specs)[k - base.metrics.length]?

theorem map_snd_declaredFrom (base : VerdictPolicy) (specs : List GraderSpec) :
    (declaredFrom base specs).map Prod.snd = specs.flatMap (declaredDefinitions base) := by
  unfold declaredFrom
  rw [List.map_flatMap]
  have plain : ∀ e : GraderSpec × Nat,
      ((declaredDefinitions base e.1).map fun d => (e.2, d)).map Prod.snd =
        declaredDefinitions base e.1 := by
    intro e
    rw [List.map_map]
    exact List.map_id _
  simp only [plain]
  rw [← List.flatMap_map Prod.fst, List.zipIdx_map_fst]

/-- The row as the verdict reads it; a value that is not finite is no number to read. -/
def ScoreRow.score? : ScoreRow → Option Score
  | .measured row =>
      match row.value with
      | .finite value =>
          some (.measured
            { measurement := row.measurement, graderId := row.graderId, metric := row.metric,
              value, pass := row.pass, label := row.label })
      | _ => none
  | .unmeasured row =>
      some (.unmeasured
        { measurement := row.measurement, graderId := row.graderId, metric := row.metric })
  | .invalid identity =>
      some (.invalid
        { measurement := identity.measurement, graderId := identity.graderId,
          metric := identity.metric })

/-- Does the specification declare an authority for the metric? -/
def GraderSpec.declares (spec : GraderSpec) (metric : String) : Bool :=
  if spec.metrics.length > 0 then
    spec.metrics.any fun m => m.id = metric && m.authority.isSome
  else spec.id = metric && spec.authority.isSome

/-- The metrics of the base policy that are not of the constitution. -/
def BASE_OBSERVATIONS : List String := ["cost_usd", "latency_ms", "tool_calls"]

section Governing

variable {specs : List GraderSpec} {spec : GraderSpec} {metric : String}

theorem isStructured_compose (version : VerdictPolicy → String) (specs : List GraderSpec)
    (criticalCases : List CaseMatcher) :
    isStructured (composeVerdictPolicy version specs DEFAULT_VERDICT_POLICY criticalCases) =
      true := by
  unfold isStructured
  rw [measurementIdentity_composeVerdictPolicy]
  rfl

/-- A metric that the constitution and the base policy leave alone is covered by no
definition of the base. -/
theorem base_silent (free : isConstitutionalMetric metric = false)
    (fresh : metric ∉ BASE_OBSERVATIONS) {d : MetricDefinition}
    (mem : d ∈ DEFAULT_VERDICT_POLICY.metrics) : metricMatches d.matcher metric = false := by
  simp only [isConstitutionalMetric, isJudgeFamilyMetric, Bool.or_eq_false_iff,
    decide_eq_false_iff_not] at free
  obtain ⟨reserved, root, family⟩ := free
  have family : Text.startsWith metric "judge:" = false := family
  have root : ¬ metric = "judge" := root
  simp only [RESERVED_AUTHORITY_METRICS, List.mem_cons, List.not_mem_nil, or_false,
    not_or] at reserved
  simp only [BASE_OBSERVATIONS, List.mem_cons, List.not_mem_nil, or_false, not_or] at fresh
  simp only [DEFAULT_VERDICT_POLICY, DEFAULT_VERDICT_POLICY_V11, List.mem_append, List.mem_cons,
    List.not_mem_nil, or_false] at mem
  rcases mem with (rfl | rfl) | rfl | rfl | rfl | rfl | rfl | rfl | rfl | rfl | rfl | rfl | rfl <;>
    simp [metricMatches, eq_comm, reserved, root, family, fresh]

theorem matcher_declared {base : VerdictPolicy} {d : MetricDefinition}
    (mem : d ∈ declaredDefinitions base spec) :
    ∃ name, d.matcher = .metric name ∧ spec.declares name = true ∧
      (base.measurementIdentity.isSome = true →
        d.producer = some { kind := .grader, id := some spec.id }) := by
  unfold declaredDefinitions at mem
  unfold GraderSpec.declares
  split at mem
  · next named =>
      obtain ⟨m, there, read⟩ := List.mem_filterMap.mp mem
      obtain ⟨authority, given, read⟩ := Option.bind_eq_some_iff.mp read
      split at read
      · cases read
      · cases read
        refine ⟨m.id, rfl, ?_, fun structured => by simp [declaredDefinition, structured]⟩
        rw [if_pos named, List.any_eq_true]
        exact ⟨m, there, by simp [given]⟩
  · next unnamed =>
      obtain ⟨authority, given, rfl⟩ := by simpa using mem
      refine ⟨spec.id, rfl, ?_, fun structured => by simp [declaredDefinition, structured]⟩
      rw [if_neg unnamed]
      simp [given]

/-- The coordinates of a row that its grader emitted under its own id. -/
def ownMeasurement (graderId metric : String) : MeasurementIdentity :=
  { producer := ⟨.grader, graderId⟩, metric }

/-- A declared definition covers the rows of its own specification's id and metric only. -/
theorem declares_of_covers {d : MetricDefinition} {graderId name : String}
    (mem : d ∈ declaredDefinitions DEFAULT_VERDICT_POLICY spec)
    (covers : definitionMatches d name (some (ownMeasurement graderId metric)) true = true) :
    spec.id = graderId ∧ spec.declares metric = true := by
  obtain ⟨name', matcher, declares, producer⟩ := matcher_declared mem
  have producer := producer rfl
  simp only [definitionMatches, if_true, producer, matcher, ownMeasurement, Option.all_some,
    ProducerMatcher.covers, metricMatches, Bool.and_eq_true, decide_eq_true_eq] at covers
  obtain ⟨⟨⟨_, same⟩, _⟩, rfl⟩ := covers
  exact ⟨same, declares⟩

theorem findIdx_first {α : Type*} {p : α → Bool} {xs ys : List α} {y : α}
    (before : ∀ x ∈ xs, p x = false) (here : p y = true) :
    (xs ++ y :: ys).findIdx? p = some xs.length := by
  have none : xs.findIdx? p = none := by
    rw [List.findIdx?_eq_none_iff]
    exact before
  rw [List.findIdx?_append, none, List.findIdx?_cons, if_pos here]
  simp

/-- What a specification adds, split at its first declaration of a metric. -/
theorem declaredDefinitions_split {m : MetricDeclaration} {authority : MetricAuthority}
    (given : m.authority = some authority)
    (first : spec.metrics.find? (fun m => m.id = metric && m.authority.isSome) = some m)
    (free : isConstitutionalMetric metric = false) :
    ∃ skipped kept, declaredDefinitions DEFAULT_VERDICT_POLICY spec = skipped ++
        declaredDefinition DEFAULT_VERDICT_POLICY spec metric authority m.direction :: kept ∧
      ∀ d ∈ skipped, d.matcher ≠ .metric metric := by
  obtain ⟨own, earlier, later, metrics, unnamed⟩ := List.find?_eq_some_iff_append.mp first
  simp only [Bool.and_eq_true, decide_eq_true_eq] at own
  obtain ⟨rfl, _⟩ := own
  have named : spec.metrics.length > 0 := by
    rw [metrics]
    simp
  unfold declaredDefinitions
  rw [if_pos named, metrics, List.filterMap_append, List.filterMap_cons]
  simp only [given, Option.bind_some, free, Bool.false_eq_true, if_false]
  refine ⟨_, _, rfl, ?_⟩
  intro d mem covers
  obtain ⟨m', there, read⟩ := List.mem_filterMap.mp mem
  obtain ⟨authority', given', read⟩ := Option.bind_eq_some_iff.mp read
  split at read
  · cases read
  · cases read
    have other := unnamed m' there
    rw [given', MetricMatcher.metric.inj covers] at other
    simp at other

/-- The definitions of all specifications, split at that one. -/
theorem declaredFrom_split {i : Nat} {m : MetricDeclaration} {authority : MetricAuthority}
    (declared : specs[i]? = some spec) (given : m.authority = some authority)
    (first : spec.metrics.find? (fun m => m.id = metric && m.authority.isSome) = some m)
    (free : isConstitutionalMetric metric = false)
    (earliest : ∀ earlier ∈ specs.take i, earlier.id = spec.id → earlier.declares metric = false) :
    ∃ before after, declaredFrom DEFAULT_VERDICT_POLICY specs = before ++
        (i, declaredDefinition DEFAULT_VERDICT_POLICY spec metric authority m.direction) :: after ∧
      ∀ e ∈ before, ∀ name,
        definitionMatches e.2 name (some (ownMeasurement spec.id metric)) true = false := by
  obtain ⟨inside, at_i⟩ := List.getElem?_eq_some_iff.mp declared
  have split : specs = specs.take i ++ spec :: specs.drop (i + 1) := by
    rw [← at_i, ← List.drop_eq_getElem_cons inside, List.take_append_drop]
  have place : (specs.take i).length = i := by
    rw [List.length_take]
    omega
  obtain ⟨skipped, kept, block, unlike⟩ := declaredDefinitions_split given first free
  have blocks : declaredFrom DEFAULT_VERDICT_POLICY specs =
      ((specs.take i).zipIdx.flatMap fun e =>
          (declaredDefinitions DEFAULT_VERDICT_POLICY e.1).map fun d => (e.2, d)) ++
        ((skipped.map fun d => (i, d)) ++
          (i, declaredDefinition DEFAULT_VERDICT_POLICY spec metric authority m.direction) ::
            ((kept.map fun d => (i, d)) ++
              ((specs.drop (i + 1)).zipIdx (i + 1)).flatMap fun e =>
                (declaredDefinitions DEFAULT_VERDICT_POLICY e.1).map fun d => (e.2, d))) := by
    unfold declaredFrom
    conv_lhs => rw [split]
    rw [List.zipIdx_append, List.flatMap_append, List.zipIdx_cons, List.flatMap_cons, place,
      Nat.zero_add, block, List.map_append, List.map_cons, List.append_assoc, List.cons_append]
  rw [blocks, ← List.append_assoc]
  refine ⟨_, _, rfl, ?_⟩
  intro e mem name
  rw [Bool.eq_false_iff]
  intro covers
  rcases List.mem_append.mp mem with mem | mem
  · obtain ⟨⟨earlier, _⟩, there, own⟩ := List.mem_flatMap.mp mem
    obtain ⟨d, adds, rfl⟩ := List.mem_map.mp own
    obtain ⟨same, declares⟩ := declares_of_covers adds covers
    have there := List.fst_mem_of_mem_zipIdx there
    rw [earliest earlier there same] at declares
    cases declares
  · obtain ⟨d, skips, rfl⟩ := List.mem_map.mp mem
    have adds : d ∈ declaredDefinitions DEFAULT_VERDICT_POLICY spec := by
      rw [block]
      exact List.mem_append_left _ skips
    obtain ⟨name', matcher, _⟩ := matcher_declared adds
    simp only [definitionMatches, if_true, matcher, metricMatches, ownMeasurement,
      Bool.and_eq_true, decide_eq_true_eq] at covers
    exact unlike d skips (by rw [matcher, covers.2])

/-- The first definition that covers a row of that metric under the specification's own id
is the one that the specification composed. -/
theorem governing_own (version : VerdictPolicy → String) (criticalCases : List CaseMatcher)
    {i : Nat} {m : MetricDeclaration} {authority : MetricAuthority} {row : ScoreRow}
    (declared : specs[i]? = some spec) (given : m.authority = some authority)
    (first : spec.metrics.find? (fun m => m.id = metric && m.authority.isSome) = some m)
    (free : isConstitutionalMetric metric = false) (fresh : metric ∉ BASE_OBSERVATIONS)
    (earliest : ∀ earlier ∈ specs.take i, earlier.id = spec.id → earlier.declares metric = false)
    (own : row.measurement = some (ownMeasurement spec.id metric)) :
    governing (composeVerdictPolicy version specs DEFAULT_VERDICT_POLICY criticalCases)
        DEFAULT_VERDICT_POLICY specs row =
      some (i, declaredDefinition DEFAULT_VERDICT_POLICY spec metric authority m.direction) := by
  obtain ⟨before, after, blocks, unlike⟩ := declaredFrom_split declared given first free earliest
  have covers : ∀ name, definitionMatches
      (declaredDefinition DEFAULT_VERDICT_POLICY spec metric authority m.direction) name
      (some (ownMeasurement spec.id metric)) true = true := by
    intro name
    simp [definitionMatches, declaredDefinition, DEFAULT_VERDICT_POLICY, ownMeasurement,
      ProducerMatcher.covers, metricMatches]
  have found : firstMatch
      (composeVerdictPolicy version specs DEFAULT_VERDICT_POLICY criticalCases) row =
        some (DEFAULT_VERDICT_POLICY.metrics ++ before.map Prod.snd).length := by
    unfold firstMatch
    rw [isStructured_compose, metrics_composeVerdictPolicy, ← map_snd_declaredFrom, blocks, own,
      List.map_append, List.map_cons, ← List.append_assoc]
    apply findIdx_first
    · intro d mem
      rcases List.mem_append.mp mem with base | earlier
      · simp [definitionMatches, ownMeasurement, base_silent free fresh base]
      · obtain ⟨e, there, rfl⟩ := List.mem_map.mp earlier
        exact unlike e there _
    · exact covers _
  unfold governing
  rw [found, Option.bind_some, List.length_append, List.length_map, if_neg (by omega),
    Nat.add_sub_cancel_left, blocks, List.getElem?_append_right (Nat.le_refl _)]
  simp

theorem metrics_of_governing {version : VerdictPolicy → String}
    {criticalCases : List CaseMatcher} {row : ScoreRow} {e : Nat × MetricDefinition}
    (found : governing (composeVerdictPolicy version specs DEFAULT_VERDICT_POLICY criticalCases)
      DEFAULT_VERDICT_POLICY specs row = some e) :
    ∃ k, firstMatch (composeVerdictPolicy version specs DEFAULT_VERDICT_POLICY criticalCases) row =
        some k ∧
      (composeVerdictPolicy version specs DEFAULT_VERDICT_POLICY criticalCases).metrics[k]? =
        some e.2 := by
  obtain ⟨k, matched, from_spec⟩ := Option.bind_eq_some_iff.mp found
  split at from_spec
  · cases from_spec
  · next past =>
      refine ⟨k, matched, ?_⟩
      rw [metrics_composeVerdictPolicy, ← map_snd_declaredFrom,
        List.getElem?_append_right (Nat.le_of_not_lt past), List.getElem?_map, from_spec]
      rfl

end Governing

/-! ## The rows that a grader emits -/

section Emitted

variable {toText : ℚ → String} {declaration : SettleDeclaration} {row : ScoreRow}

theorem startsWith_of_append {s a b : String} (long : Text.startsWith s (a ++ b) = true) :
    Text.startsWith s a = true := by
  simp only [Text.startsWith, List.isPrefixOf_iff_prefix, String.toList_append] at long ⊢
  exact (List.prefix_append _ _).trans long

theorem isJudgeFamilyMetric_of_own {metric judgeId : String}
    (own : isJudgeMetricOf metric judgeId = true) : isJudgeFamilyMetric metric = true := by
  simp only [isJudgeMetricOf, isJudgeFamilyMetric, Bool.or_eq_true, decide_eq_true_eq] at own ⊢
  right
  rcases own with rfl | own
  · simp [Text.startsWith, List.isPrefixOf_iff_prefix]
  · rw [String.append_assoc] at own
    exact startsWith_of_append own

/-- A row of a metric without authority is stamped as its grader's own. -/
theorem settleScore_own (toText : ℚ → String) (declaration : SettleDeclaration)
    (free : isConstitutionalMetric row.metric = false)
    (valid : row.isInvalid = false) (whole : row.valueBroken = false)
    (named : row.idsBroken = false) :
    settleScore toText declaration row =
      row.claiming (some (ownMeasurement row.graderId row.metric)) := by
  have free' := free
  simp only [isConstitutionalMetric, Bool.or_eq_false_iff, decide_eq_false_iff_not] at free'
  obtain ⟨reserved, family⟩ := free'
  have unforged : ∀ ownsMetrics ownsJudgeVerdict namespaces,
      forgedMetricReason row.metric
        (.grader row.graderId ownsMetrics ownsJudgeVerdict namespaces) = none := by
    intro ownsMetrics ownsJudgeVerdict namespaces
    simp [forgedMetricReason, family, reserved]
  have stamp : ∀ ownsMetrics ownsJudgeVerdict namespaces,
      measurementIdentityOf row.metric
        (.grader row.graderId ownsMetrics ownsJudgeVerdict namespaces) =
          ownMeasurement row.graderId row.metric := by
    intro ownsMetrics ownsJudgeVerdict namespaces
    simp [measurementIdentityOf, family, ScoreProducer.owner, ownMeasurement]
  rcases scoreProducer_cases declaration row.graderId row.metric with
    ⟨_, own, _⟩ | eq | ⟨spec, _, _, eq⟩
  · rw [isJudgeFamilyMetric_of_own own] at family
    cases family
  all_goals
    unfold settleScore sanitizeScore
    simp [valid, whole, named, eq, unforged, stamp]

theorem mem_votes_settled {toText : ℚ → String} {declaration : SettleDeclaration}
    {result : SubmittedResult} {c : Decider}
    (mem : c ∈ votes true
      ((sanitizeSubmittedResult toText result declaration).scores.filterMap ScoreRow.score?)) :
    ∃ m, c.measurement = some m := by
  obtain ⟨score, there, vote⟩ := List.mem_filterMap.mp mem
  obtain ⟨row, settled, read⟩ := List.mem_filterMap.mp there
  rw [sanitized_scores] at settled
  obtain ⟨submitted, _, rfl⟩ := List.mem_map.mp settled
  generalize settledRow : settleScore toText declaration submitted = row at read
  have stamped := (settled_settleScore toText declaration submitted).stamped
  rw [settledRow] at stamped
  cases row with
  | invalid identity =>
      cases read
      cases vote
  | unmeasured row =>
      cases read
      cases vote
  | measured row =>
      obtain ⟨_, _, stamp⟩ := stamped.resolve_left (by simp [ScoreRow.isInvalid])
      have stamp : row.measurement = some _ := stamp
      simp only [ScoreRow.score?] at read
      split at read
      · cases read
        simp only [voteOf, Score.measured?, Option.bind_some, Option.map_eq_some_iff] at vote
        obtain ⟨pass, _, rfl⟩ := vote
        exact ⟨_, stamp⟩
      · cases read

theorem exists_vote {r : MeasuredRow} {pass : Bool}
    (whole : (ScoreRow.measured r).valueBroken = false) (passes : r.pass = some pass) :
    ∃ score c, (ScoreRow.measured r).score? = some score ∧ voteOf true score = some c ∧
      c.measurement = r.measurement := by
  cases value : r.value with
  | finite q =>
      simp [ScoreRow.score?, value, voteOf, Score.measured?, passes]
  | nan => simp [ScoreRow.valueBroken, value, JsNumber.isFinite] at whole
  | infinity => simp [ScoreRow.valueBroken, value, JsNumber.isFinite] at whole
  | negativeInfinity => simp [ScoreRow.valueBroken, value, JsNumber.isFinite] at whole

/-- The graders are built one for each specification. -/
theorem buildGrader_of_makeGraders {judge : Bool} {validPattern : String → Bool}
    {specs : List GraderSpec} {graders : List Grader} {i : Nat} {spec : GraderSpec}
    {grader : Grader} (makes : makeGraders judge validPattern specs = .ok graders)
    (declared : specs[i]? = some spec) (built : graders[i]? = some grader) :
    ∃ bare, buildGrader judge validPattern spec = .ok bare ∧
      grader = withDeclaredAuthority bare spec := by
  unfold makeGraders at makes
  induction specs generalizing graders i with
  | nil => simp at declared
  | cons s specs ih =>
      rw [List.mapM_cons] at makes
      cases head : buildGrader judge validPattern s with
      | error e =>
          rw [head] at makes
          cases makes
      | ok bare =>
          rw [head] at makes
          cases tail : specs.mapM fun s => do
            let grader ← buildGrader judge validPattern s
            return withDeclaredAuthority grader s with
          | error e =>
              rw [tail] at makes
              cases makes
          | ok others =>
              rw [tail] at makes
              cases makes
              cases i with
              | zero =>
                  cases declared
                  cases built
                  exact ⟨bare, head, rfl⟩
              | succ i => exact ih tail declared built

theorem id_ne_empty_of_built {judge : Bool} {validPattern : String → Bool} {spec : GraderSpec}
    {bare : Grader} (built : buildGrader judge validPattern spec = .ok bare) : spec.id ≠ "" := by
  intro empty
  simp [buildGrader, empty] at built

/-- A settled row with a pass is read on the rung of the definition that governs it. -/
theorem read_on_rung {toText : ℚ → String} {declaration : SettleDeclaration}
    {policy : VerdictPolicy} {result : SubmittedResult} {r : MeasuredRow} {pass : Bool} {k : Nat}
    {d : MetricDefinition} {rung : DecidingAuthority}
    (structured : isStructured policy = true)
    (settled : .measured r ∈ (sanitizeSubmittedResult toText result declaration).scores)
    (passes : r.pass = some pass) (matched : firstMatch policy (.measured r) = some k)
    (definition : policy.metrics[k]? = some d) (role : d.verdictRole = none)
    (authority : rung.authority = d.authority) :
    ∃ c ∈ rungDeciders policy true
        ((dedupeByMetric ((sanitizeSubmittedResult toText result declaration).scores.filterMap
          ScoreRow.score?) true).filter (isCandidate policy true)) rung,
      c.measurement = r.measurement := by
  have own : Settled declaration (.measured r) := by
    rw [sanitized_scores] at settled
    obtain ⟨submitted, _, eq⟩ := List.mem_map.mp settled
    rw [← eq]
    exact settled_settleScore toText declaration submitted
  obtain ⟨whole, _, stamp⟩ := own.stamped.resolve_left (by simp [ScoreRow.isInvalid])
  obtain ⟨score, c, read, vote, same⟩ := exists_vote whole passes
  have there : c ∈ votes true
      ((sanitizeSubmittedResult toText result declaration).scores.filterMap ScoreRow.score?) :=
    List.mem_filterMap.mpr ⟨score, List.mem_filterMap.mpr ⟨_, settled, read⟩, vote⟩
  obtain ⟨x, isFirst⟩ := Election.exists_first Decider.key there
  obtain ⟨from_votes, sameKey⟩ := Election.mem_of_first isFirst
  obtain ⟨group, mem, _, metric, measurement, _⟩ := exists_group isFirst
  have stamp : r.measurement = some _ := stamp
  obtain ⟨m, found⟩ := mem_votes_settled from_votes
  have coordinates : group.measurement = r.measurement := by
    rw [measurement, found, stamp]
    unfold Decider.key at sameKey
    rw [found, same, stamp] at sameKey
    rw [dedupeKey_inj sameKey]
  refine ⟨group, ?_, coordinates⟩
  rw [dedupeByMetric_eq, mem_rungDeciders]
  refine ⟨mem, k, ?_⟩
  have covers : (fun d => definitionMatches d (ScoreRow.measured r).metric
      (ScoreRow.measured r).measurement (isStructured policy)) = group.matches true := by
    funext d
    unfold Decider.matches
    rw [structured, coordinates]
    have stamp' : (ScoreRow.measured r).measurement = r.measurement := rfl
    rw [stamp', stamp]
    rfl
  have place : Scorecard.matched policy true group = some k := by
    unfold Scorecard.matched
    rw [← covers]
    exact matched
  unfold standing
  rw [place]
  dsimp only
  rw [definition, Option.map_some, Option.getD_some]
  unfold standingOf
  rw [role, ← authority]
  cases rung <;> rfl

end Emitted

/-- A grader that is built under the id of its specification has each metric that it
declares with an authority governed by the declaration, unless the constitution or the base
policy gives the name a meaning or an earlier specification of that id declares it: a row
that keeps the contract is covered first by the definition that the specification composed,
and its pass is read on the declared rung. -/
theorem declaration_governs (toText : ℚ → String) (version : VerdictPolicy → String)
    (criticalCases : List CaseMatcher) (judges : List String) {judge : Bool}
    {validPattern : String → Bool} {specs : List GraderSpec} {graders : List Grader} {i : Nat}
    {spec : GraderSpec} {grader : Grader} {metric : String} {m : MetricDeclaration}
    {authority : MetricAuthority} {row : ScoreRow}
    (makes : makeGraders judge validPattern specs = .ok graders)
    (declared : specs[i]? = some spec) (built : graders[i]? = some grader)
    (own : grader.id = spec.id)
    (first : spec.metrics.find? (fun m => m.id = metric && m.authority.isSome) = some m)
    (given : m.authority = some authority)
    (free : isConstitutionalMetric metric = false) (fresh : metric ∉ BASE_OBSERVATIONS)
    (earliest : ∀ earlier ∈ specs.take i, earlier.id = spec.id → earlier.declares metric = false)
    (emitted : row.graderId = grader.id ∧ row.metric = metric)
    (keeps : row.isInvalid = false ∧ row.valueBroken = false) :
    ∃ d, governing (composeVerdictPolicy version specs DEFAULT_VERDICT_POLICY criticalCases)
        DEFAULT_VERDICT_POLICY specs (settleScore toText ⟨specs, judges⟩ row) = some (i, d) ∧
      d.authority = authority ∧ d.verdictRole = none ∧
      ∀ result r pass rung, row ∈ result.scores →
        settleScore toText ⟨specs, judges⟩ row = .measured r → r.pass = some pass →
        rung.authority = authority →
        ∃ c ∈ rungDeciders
            (composeVerdictPolicy version specs DEFAULT_VERDICT_POLICY criticalCases) true
            ((dedupeByMetric
                ((sanitizeSubmittedResult toText result ⟨specs, judges⟩).scores.filterMap
                  ScoreRow.score?) true).filter
              (isCandidate
                (composeVerdictPolicy version specs DEFAULT_VERDICT_POLICY criticalCases) true))
            rung,
          c.measurement = r.measurement := by
  obtain ⟨bare, build, _⟩ := buildGrader_of_makeGraders makes declared built
  obtain ⟨grader_id, rfl⟩ := emitted
  have same : row.graderId = spec.id := grader_id.trans own
  have named : row.idsBroken = false := by
    have met : m.id = row.metric := by
      have found := List.find?_some first
      simp only [Bool.and_eq_true, decide_eq_true_eq] at found
      exact found.1
    simp [ScoreRow.idsBroken, same, id_ne_empty_of_built build, ← met, m.named]
  have stamped : (settleScore toText ⟨specs, judges⟩ row).measurement =
      some (ownMeasurement spec.id row.metric) := by
    rw [settleScore_own toText _ free keeps.1 keeps.2 named, claiming_measurement, same]
  have governed := governing_own version criticalCases declared given first free fresh earliest
    stamped
  refine ⟨_, governed, rfl, rfl, ?_⟩
  intro result r pass rung there measured passes rungs
  obtain ⟨k, matched, definition⟩ := metrics_of_governing governed
  rw [measured] at matched
  refine read_on_rung (isStructured_compose version specs criticalCases) ?_ passes matched
    definition rfl rungs
  rw [sanitized_scores, ← measured]
  exact List.mem_map_of_mem there

/-- A custom grader that names what it measures. -/
def qualityCheck : GraderSpec where
  id := "script"
  config := { language := some "python", code := some "print(grade())" }
  metrics := [{ id := "quality", authority := some .groundTruth }]

/-- The same grader under a name of its own. -/
def businessCheck : GraderSpec :=
  { qualityCheck with config := { qualityCheck.config with id := some "business-check" } }

/-- A declaration of a name that the constitution reads. -/
def worldCheck : GraderSpec where
  id := "state-check"
  metrics := [{ id := "state", authority := some .objective }]

/-- A declaration of a name that the base policy reads. -/
def spendCheck : GraderSpec :=
  { qualityCheck with metrics := [{ id := "cost_usd", authority := some .objective }] }

def passingRow (graderId metric : String) : ScoreRow :=
  .measured { graderId, metric, value := .finite 1, pass := some true }

theorem declaration_governs_qualityCheck :
    ∃ d, governing (composeVerdictPolicy (fun _ => "") [qualityCheck] DEFAULT_VERDICT_POLICY [])
        DEFAULT_VERDICT_POLICY [qualityCheck]
        (settleScore (fun _ => "1") ⟨[qualityCheck], []⟩ (passingRow "script" "quality")) =
          some (0, d) ∧
      d.authority = .groundTruth ∧ d.verdictRole = none := by
  obtain ⟨d, governed, authority, role, _⟩ := declaration_governs (fun _ => "1") (fun _ => "") [] []
    (show makeGraders false (fun _ => true) [qualityCheck] =
      .ok [{ id := "script", ownsMetrics := ["quality"] }] by decide +kernel)
    (show [qualityCheck][0]? = some qualityCheck from rfl) rfl rfl
    (show qualityCheck.metrics.find? (fun m => m.id = "quality" && m.authority.isSome) =
      some { id := "quality", authority := some .groundTruth } by decide +kernel)
    rfl (by decide +kernel) (by decide +kernel) (by simp)
    (show (passingRow "script" "quality").graderId = "script" ∧
      (passingRow "script" "quality").metric = "quality" from ⟨rfl, rfl⟩) ⟨rfl, rfl⟩
  exact ⟨d, governed, authority, role⟩

/-- No declaration governs the rows of a grader renamed by its configuration, nor those of
a name that the constitution or the base policy reads. -/
theorem declaration_is_not_matched :
    makeGraders false (fun _ => true) [businessCheck, worldCheck, spendCheck] =
        .ok [{ id := "business-check", ownsMetrics := ["quality"] },
          { id := "state-check", ownsMetrics := ["state"] },
          { id := "script", ownsMetrics := ["cost_usd"] }] ∧
      [passingRow "business-check" "quality", passingRow "state-check" "state",
          passingRow "script" "cost_usd"].map (fun row =>
        governing (composeVerdictPolicy (fun _ => "") [businessCheck, worldCheck, spendCheck]
            DEFAULT_VERDICT_POLICY []) DEFAULT_VERDICT_POLICY
          [businessCheck, worldCheck, spendCheck]
          (settleScore (fun _ => "1") ⟨[businessCheck, worldCheck, spendCheck], []⟩ row)) =
        [none, none, none] := by
  decide +kernel

end Everdict.Submission
