import Everdict.Submission.DeclaredPolicy

/-!
# The two collection boundaries

In the job a row is checked against the grader that returned it (`safeGrade`); at the settle
it is checked against the declaration that its grader id names.  A row that both accept is
stamped by the settle, so the two agree where they refuse the same names
(`SameEntitlement`).

They do not refuse the same names for every declaration.  `withDeclaredAuthority` puts the
declared metrics in the place of the built-in ones, where the settle adds them to those; and
the settle looks a renamed grader up under `config.id` also in the specifications whose
implementation does not read that slot.
-/

namespace Everdict.Submission

/-! ## The boundary in the job -/

/-- How a grader's call ended. -/
inductive Graded where
  | returned (rows : List ScoreRow)
  | timedOut
  | threw (message : String)

/-- The budget of the case, in seconds, and what was left of it, in milliseconds. -/
structure GradeBudget where
  timeoutSec : ℚ
  remainingMs : Nat

def Grader.producer (grader : Grader) : ScoreProducer :=
  .grader grader.id grader.ownsMetrics grader.ownsJudgeVerdict grader.namespacesJudgeCriteria

/-- The one row that stands for a grader without a result. -/
def ungraded (grader : Grader) (reason : UnmeasuredReason) (detail : String) : ScoreRow :=
  .unmeasured
    { graderId := grader.id, metric := grader.id, reason, retryable := true
      detail := some (.text detail) }

def safeGrade (toText : ℚ → String) (budget : GradeBudget) (grader : Grader) :
    Graded → List ScoreRow
  | .returned rows => rows.map fun row => sanitizeScore toText row (some grader.producer)
  | .timedOut =>
      let id := grader.id
      let declared := toText budget.timeoutSec
      let left := (budget.remainingMs + 500) / 1000
      [ungraded grader .graderTimeout
        (s!"[grader-timeout] '{id}' did not return within what remained of the case's "
          ++ s!"{declared}s budget ({left}s)")]
  | .threw message => [ungraded grader .graderError s!"[grader-error] {message}"]

/-! ## What the two boundaries are asked -/

/-- What the boundaries are compared on. -/
structure RowOutcome where
  status : String
  metric : String
  value : Option JsNumber
  pass : Option Bool
  measurement : Option MeasurementIdentity
  deriving DecidableEq

def ScoreRow.outcome : ScoreRow → RowOutcome
  | .measured row => ⟨"measured", row.metric, some row.value, row.pass, row.measurement⟩
  | .unmeasured row => ⟨"unmeasured", row.metric, none, none, row.measurement⟩
  | .invalid identity => ⟨"invalid", identity.metric, none, none, identity.measurement⟩

/-- A row that keeps the contract but for its name. -/
def ScoreRow.sound (row : ScoreRow) : Bool :=
  !row.isInvalid && !row.idsBroken && !row.valueBroken

/-- The rows of a grader come to the same through the job as without it, they are refused by
both boundaries or by none, and the built-in's own metrics by none.  A built grader writes its
own id on every row. -/
structure BoundariesAgree (toText : ℚ → String) (budget : GradeBudget)
    (declaration : SettleDeclaration) (spec : GraderSpec) (grader : Grader) : Prop where
  rows : ∀ (caseId : String) (rows : List ScoreRow), (∀ row ∈ rows, row.graderId = grader.id) →
    (sanitizeSubmittedResult toText
      ⟨caseId, safeGrade toText budget grader (.returned rows)⟩ declaration).scores.map
        ScoreRow.outcome =
      (sanitizeSubmittedResult toText ⟨caseId, rows⟩ declaration).scores.map ScoreRow.outcome
  refused : ∀ row : ScoreRow, row.graderId = grader.id →
    (sanitizeScore toText row (some grader.producer)).isInvalid =
      (settleScore toText declaration row).isInvalid
  fixed : ∀ row : ScoreRow, row.graderId = grader.id → row.sound = true →
    row.metric ∈ builtInOwnedMetrics spec.id →
    (sanitizeScore toText row (some grader.producer)).isInvalid = false ∧
      (settleScore toText declaration row).isInvalid = false

/-- May the grader of this specification write into the judge family? -/
def GraderSpec.ownsJudgeVerdict (spec : GraderSpec) : Bool :=
  spec.id ∈ BUILTIN_JUDGE_GRADER_IDS || declaredJudgeAuthority spec

/-- A built-in with metrics of its own declares no others, and the specification that the
settle finds under the grader's id has the same built-in metrics and the same right to the
judge family.  Rows without a grader id are refused by both boundaries. -/
def SameEntitlement (graders : List GraderSpec) (spec : GraderSpec) (graderId : String) : Prop :=
  graderId ≠ "" →
    (builtInOwnedMetrics spec.id = [] ∨ declaredOwnedMetrics spec = []) ∧
      ∀ found, specProducing graders graderId = some found →
        (∀ metric, metric ∈ builtInOwnedMetrics found.id ↔ metric ∈ builtInOwnedMetrics spec.id) ∧
          found.ownsJudgeVerdict = spec.ownsJudgeVerdict

/-! ## The producers of the two boundaries -/

section Producers

variable {graderId graderId' metric : String} {owns owns' : List String}
  {ownsJudgeVerdict ownsJudgeVerdict' namespaces namespaces' : Bool}

/-- A reason depends on the metric and on the grants, not on who holds them. -/
theorem forgedMetricReason_congr (judges : ownsJudgeVerdict = ownsJudgeVerdict')
    (same : ∀ metric ∈ RESERVED_AUTHORITY_METRICS, metric ∈ owns ↔ metric ∈ owns') :
    forgedMetricReason metric (.grader graderId owns ownsJudgeVerdict namespaces) =
      forgedMetricReason metric (.grader graderId' owns' ownsJudgeVerdict' namespaces') := by
  subst judges
  by_cases family : isJudgeFamilyMetric metric = true
  · simp only [forgedMetricReason, family, if_true]
  · by_cases reserved : metric ∈ RESERVED_AUTHORITY_METRICS
    · simp only [forgedMetricReason, family, reserved, same metric reserved]
    · simp [forgedMetricReason, family, reserved]

theorem unforged_judge :
    forgedMetricReason JUDGE_METRIC_ROOT (.grader graderId owns ownsJudgeVerdict namespaces) =
      none ↔ ownsJudgeVerdict = true := by
  have family : isJudgeFamilyMetric JUDGE_METRIC_ROOT = true := by decide +kernel
  cases ownsJudgeVerdict <;> simp [forgedMetricReason, family]

theorem unforged_reserved (reserved : metric ∈ RESERVED_AUTHORITY_METRICS) :
    forgedMetricReason metric (.grader graderId owns ownsJudgeVerdict namespaces) = none ↔
      metric ∈ owns := by
  have outside : isJudgeFamilyMetric metric = false := by
    revert metric
    decide +kernel
  by_cases own : metric ∈ owns <;> simp [forgedMetricReason, outside, reserved, own]

end Producers

theorem reserved_of_builtIn {kind metric : String} (own : metric ∈ builtInOwnedMetrics kind) :
    metric ∈ RESERVED_AUTHORITY_METRICS := by
  have table : ∀ entry ∈ BUILTIN_GRADER_OWNED_METRICS, ∀ metric ∈ entry.2,
      metric ∈ RESERVED_AUTHORITY_METRICS := by decide +kernel
  unfold builtInOwnedMetrics at own
  rcases found : BUILTIN_GRADER_OWNED_METRICS.lookup kind with _ | metrics
  · simp [found] at own
  · obtain ⟨before, after, split, -⟩ := List.lookup_eq_some_iff.mp found
    exact table (kind, metrics) (by simp [split]) metric (by simpa [found] using own)

/-- What a built grader has from its specification's kind, before any declaration. -/
structure OfKind (spec : GraderSpec) (bare : Grader) : Prop where
  named : spec.Names bare.id
  metrics : ∀ metric ∈ RESERVED_AUTHORITY_METRICS,
    metric ∈ bare.ownsMetrics ↔ metric ∈ builtInOwnedMetrics spec.id
  judges : bare.ownsJudgeVerdict = decide (spec.id ∈ BUILTIN_JUDGE_GRADER_IDS)

variable {spec : GraderSpec}

theorem ofKind_configured (outside : spec.id ∉ BUILTIN_JUDGE_GRADER_IDS) :
    OfKind spec (configured spec spec.id) where
  named := by
    rcases renamed : truthy spec.config.id with _ | id
    · exact .inl (by simp [configured, renamed])
    · right
      have given : spec.config.id = some id := (Option.filter_eq_some_iff.mp renamed).1
      rw [given]
      simp [configured, renamed]
  metrics _ _ := Iff.rfl
  judges := by simp [configured, outside]

/-- A grader that its kind alone determines. -/
theorem ofKind_fixed {owns : List String} (outside : spec.id ∉ BUILTIN_JUDGE_GRADER_IDS)
    (same : ∀ metric ∈ RESERVED_AUTHORITY_METRICS,
      metric ∈ owns ↔ metric ∈ builtInOwnedMetrics spec.id) :
    OfKind spec { id := spec.id, ownsMetrics := owns } where
  named := .inl rfl
  metrics := same
  judges := by simp [outside]

theorem ofKind_script {bare : Grader} (kind : spec.id = "script")
    (built : scriptGrader spec = .ok bare) : OfKind spec bare := by
  unfold scriptGrader at built
  split at built
  · cases built
  · split at built
    · cases built
    · cases built
      rw [← kind]
      exact ofKind_configured (by rw [kind]; decide)

theorem ofKind_textMetric {bare : Grader} {validPattern : String → Bool}
    (kind : spec.id = "text-metric") (built : textMetricGrader validPattern spec = .ok bare) :
    OfKind spec bare := by
  unfold textMetricGrader at built
  dsimp only at built
  split at built
  · cases built
  · split at built
    · cases built
    · split at built
      · cases built
      · cases built
        rw [← kind]
        exact ofKind_configured (by rw [kind]; decide)

theorem ofKind_judge {bare : Grader} {judge : Bool} (kind : spec.id = "judge")
    (built : judgeGrader judge spec = .ok bare) :
    OfKind spec bare := by
  unfold judgeGrader at built
  split at built
  · cases built
  · cases built
    refine ⟨?_, ?_, ?_⟩
    · rcases renamed : spec.config.id with _ | id
      · exact .inl (by simp [kind])
      · exact .inr (by simp [renamed])
    · have nothing : ∀ metric ∈ RESERVED_AUTHORITY_METRICS,
          metric ∈ ([] : List String) ↔ metric ∈ builtInOwnedMetrics "judge" := by decide +kernel
      simpa only [kind] using nothing
    · simp [kind, BUILTIN_JUDGE_GRADER_IDS]

theorem ofKind_buildGrader {judge : Bool} {validPattern : String → Bool} {bare : Grader}
    (built : buildGrader judge validPattern spec = .ok bare) :
    OfKind spec bare := by
  unfold buildGrader at built
  have same : ∀ metric ∈ RESERVED_AUTHORITY_METRICS,
      metric ∈ builtInOwnedMetrics spec.id ↔ metric ∈ builtInOwnedMetrics spec.id :=
    fun _ _ => Iff.rfl
  split at built
  case h_5 kind => exact ofKind_script kind built
  case h_16 kind => exact ofKind_textMetric kind built
  case h_17 kind => exact ofKind_judge kind built
  case h_18 => cases built
  all_goals
    next kind =>
      cases built
      first
        | rw [← kind]; exact ofKind_configured (by rw [kind]; decide)
        | rw [← kind]; exact ofKind_fixed (by rw [kind]; decide) same
        | rw [← kind]; exact ofKind_fixed (by rw [kind]; decide) (by rw [kind]; decide +kernel)

/-! ## A row at both boundaries -/

section Rows

variable {toText : ℚ → String} {declaration : SettleDeclaration} {row : ScoreRow}

/-- A row that the first boundary stamped or left is to the settle what it was before. -/
theorem settleScore_of_claiming (m : Option MeasurementIdentity) (valid : row.isInvalid = false) :
    settleScore toText declaration (row.claiming m) = settleScore toText declaration row := by
  have same : contractViolation toText (row.claiming m) = contractViolation toText row := by
    funext forged
    cases row <;> rfl
  unfold settleScore sanitizeScore
  simp only [claiming_isInvalid, claiming_idsBroken, claiming_valueBroken, claiming_metric,
    claiming_graderId, claiming_claiming, valid, same, Bool.false_and, Bool.false_eq_true,
    if_false, Option.bind_some]

/-- What the settle refuses the job had to refuse as well, and the reverse, for the two
roads to be one. -/
theorem settleScore_sanitizeScore {producer : ScoreProducer}
    (same : forgedMetricReason row.metric producer =
      forgedMetricReason row.metric (scoreProducer declaration row.graderId row.metric)) :
    settleScore toText declaration (sanitizeScore toText row (some producer)) =
      settleScore toText declaration row := by
  unfold sanitizeScore
  by_cases kept : (row.isInvalid && !row.idsBroken) = true
  · rw [if_pos kept]
  · rw [if_neg kept]
    dsimp only [Option.bind_some]
    by_cases good : (!row.idsBroken && !row.valueBroken &&
        decide (forgedMetricReason row.metric producer = none)) = true
    · rw [if_pos good]
      simp only [Bool.and_eq_true, Bool.not_eq_true', decide_eq_true_eq] at good
      exact settleScore_of_claiming _ (by simpa [good.1.1] using kept)
    · rw [if_neg good]
      have stays : settleScore toText declaration (.invalid (contractViolation toText row
          (forgedMetricReason row.metric producer))) = .invalid (contractViolation toText row
          (forgedMetricReason row.metric producer)) :=
        Settled.settleScore_eq ⟨contractViolation_named _, .inl rfl⟩
      rw [stays]
      unfold settleScore sanitizeScore
      rw [if_neg kept]
      dsimp only [Option.bind_some]
      rw [same] at good ⊢
      rw [if_neg good]

/-- A row without its ids is refused by every producer, and what stands for it is the same. -/
theorem outcome_of_idsBroken (broken : row.idsBroken = true) (producer : ScoreProducer) :
    (settleScore toText declaration (sanitizeScore toText row (some producer))).outcome =
      (settleScore toText declaration row).outcome := by
  have refuse : ∀ producer, sanitizeScore toText row (some producer) =
      .invalid (contractViolation toText row (forgedMetricReason row.metric producer)) := by
    intro producer
    unfold sanitizeScore
    simp [broken]
  have stays : settleScore toText declaration (.invalid (contractViolation toText row
      (forgedMetricReason row.metric producer))) = .invalid (contractViolation toText row
      (forgedMetricReason row.metric producer)) :=
    Settled.settleScore_eq ⟨contractViolation_named _, .inl rfl⟩
  rw [refuse producer, stays]
  unfold settleScore
  rw [refuse]
  rfl

theorem isInvalid_sanitizeScore (producer : ScoreProducer) :
    (sanitizeScore toText row (some producer)).isInvalid =
      (row.isInvalid || row.idsBroken || row.valueBroken ||
        (forgedMetricReason row.metric producer).isSome) := by
  unfold sanitizeScore
  dsimp only [Option.bind_some]
  rcases forged : forgedMetricReason row.metric producer with _ | reason <;>
    rcases valid : row.isInvalid <;> rcases named : row.idsBroken <;>
    rcases whole : row.valueBroken <;> simp [valid]
  all_goals rfl

theorem isInvalid_of_sound {producer : ScoreProducer} (sound : row.sound = true) :
    (sanitizeScore toText row (some producer)).isInvalid = false ↔
      forgedMetricReason row.metric producer = none := by
  simp only [ScoreRow.sound, Bool.and_eq_true, Bool.not_eq_true'] at sound
  obtain ⟨⟨valid, named⟩, whole⟩ := sound
  rw [isInvalid_sanitizeScore, valid, named, whole]
  cases forgedMetricReason row.metric producer <;> simp

end Rows

/-! ## The two boundaries agree -/

section Agree

variable {judge : Bool} {validPattern : String → Bool} {specs : List GraderSpec}
  {graders : List Grader} {i : Nat} {spec found : GraderSpec} {bare grader : Grader}
  {judges : List String} {metric : String}

/-- The grants of a spec as the settle reads them. -/
theorem scoreProducer_of_found {graderId : String}
    (isFound : specProducing specs graderId = some found) :
    scoreProducer ⟨specs, judges⟩ graderId metric =
      .grader graderId (builtInOwnedMetrics found.id ++ declaredOwnedMetrics found)
        found.ownsJudgeVerdict (specNamespacesJudgeCriteria found) := by
  unfold scoreProducer
  simp only [isFound]
  cases judges.find? fun id => id = graderId && isJudgeMetricOf metric id <;> rfl

theorem not_reserved_of_declared (declared : metric ∈ declaredOwnedMetrics spec) :
    metric ∉ RESERVED_AUTHORITY_METRICS := by
  have free := not_constitutional_of_declared declared
  simp only [isConstitutionalMetric, Bool.or_eq_false_iff, decide_eq_false_iff_not] at free
  exact free.1

theorem mem_owns_settle (reserved : metric ∈ RESERVED_AUTHORITY_METRICS) :
    metric ∈ builtInOwnedMetrics found.id ++ declaredOwnedMetrics found ↔
      metric ∈ builtInOwnedMetrics found.id := by
  rw [List.mem_append]
  exact or_iff_left fun declared => not_reserved_of_declared declared reserved

/-- The reserved names that the grader owns in the job: none once its spec declares any. -/
theorem mem_owns_job (ofKind : OfKind spec bare) (reserved : metric ∈ RESERVED_AUTHORITY_METRICS) :
    metric ∈ (withDeclaredAuthority bare spec).ownsMetrics ↔
      declaredOwnedMetrics spec = [] ∧ metric ∈ builtInOwnedMetrics spec.id := by
  unfold withDeclaredAuthority
  dsimp only
  split
  · next some' =>
      have nonempty : declaredOwnedMetrics spec ≠ [] := List.length_pos_iff.mp some'
      simp only [nonempty, false_and, iff_false]
      exact fun declared => not_reserved_of_declared declared reserved
  · next none' =>
      have empty : declaredOwnedMetrics spec = [] := by simpa using none'
      simp only [empty, true_and]
      exact ofKind.metrics metric reserved

theorem ownsJudgeVerdict_job (ofKind : OfKind spec bare) :
    (withDeclaredAuthority bare spec).ownsJudgeVerdict = spec.ownsJudgeVerdict := by
  simp only [withDeclaredAuthority, GraderSpec.ownsJudgeVerdict, ofKind.judges, Bool.or_comm]

/-- A row with a sound value under the grader's id. -/
def soundRow (graderId metric : String) : ScoreRow :=
  .measured { graderId, metric, value := .finite 1 }

theorem sound_soundRow {graderId : String} (named : graderId ≠ "") (metricNamed : metric ≠ "") :
    (soundRow graderId metric).sound = true := by
  simp [soundRow, ScoreRow.sound, ScoreRow.isInvalid, ScoreRow.idsBroken, ScoreRow.valueBroken,
    ScoreRow.metric, ScoreRow.graderId, ScoreRow.identity, JsNumber.isFinite, named, metricNamed]

theorem found_of_built (ofKind : OfKind spec bare) (declared : spec ∈ specs) :
    ∃ found, specProducing specs bare.id = some found := by
  refine Option.isSome_iff_exists.mp (List.find?_isSome.mpr ⟨spec, declared, ?_⟩)
  simpa [GraderSpec.Names] using ofKind.named

/-- Where the two entitlements are the same, a name is refused by both or by none. -/
theorem forged_agree (ofKind : OfKind spec bare)
    (isFound : specProducing specs bare.id = some found)
    (undeclared : builtInOwnedMetrics spec.id = [] ∨ declaredOwnedMetrics spec = [])
    (same : ∀ metric, metric ∈ builtInOwnedMetrics found.id ↔ metric ∈ builtInOwnedMetrics spec.id)
    (judgesSame : found.ownsJudgeVerdict = spec.ownsJudgeVerdict) :
    forgedMetricReason metric (withDeclaredAuthority bare spec).producer =
      forgedMetricReason metric
        (scoreProducer ⟨specs, judges⟩ (withDeclaredAuthority bare spec).id metric) := by
  have atSettle : scoreProducer ⟨specs, judges⟩ (withDeclaredAuthority bare spec).id metric = _ :=
    scoreProducer_of_found isFound
  rw [atSettle]
  refine forgedMetricReason_congr ((ownsJudgeVerdict_job ofKind).trans judgesSame.symm) ?_
  intro metric reserved
  rw [mem_owns_job ofKind reserved, mem_owns_settle reserved, same]
  refine ⟨And.right, fun own => ⟨undeclared.resolve_left fun none' => ?_, own⟩⟩
  rw [none'] at own
  cases own

/-- The specification's built-in metrics are refused by neither boundary: then it declares no
others, and the settle finds them again. -/
theorem entitlement_of_agree {toText : ℚ → String} {budget : GradeBudget}
    (ofKind : OfKind spec bare)
    (agree : BoundariesAgree toText budget ⟨specs, judges⟩ spec
      (withDeclaredAuthority bare spec)) : SameEntitlement specs spec bare.id := by
  intro named
  have fixed : ∀ metric ∈ builtInOwnedMetrics spec.id,
      declaredOwnedMetrics spec = [] ∧ forgedMetricReason metric
        (scoreProducer ⟨specs, judges⟩ bare.id metric) = none := by
    intro metric own
    have reserved := reserved_of_builtIn own
    have sound : (soundRow bare.id metric).sound = true := by
      refine sound_soundRow named fun empty => ?_
      rw [empty] at reserved
      revert reserved
      decide
    obtain ⟨inJob, atSettle⟩ := agree.fixed (soundRow bare.id metric) rfl sound own
    have inJob := (isInvalid_of_sound sound).mp inJob
    have atSettle := (isInvalid_of_sound sound).mp atSettle
    exact ⟨((mem_owns_job ofKind reserved).mp ((unforged_reserved reserved).mp inJob)).1, atSettle⟩
  constructor
  · rcases owned : builtInOwnedMetrics spec.id with _ | ⟨metric, _⟩
    · exact .inl rfl
    · exact .inr (fixed metric (by simp [owned])).1
  · intro found isFound
    have settles : ∀ metric, scoreProducer ⟨specs, judges⟩ bare.id metric = _ := fun metric =>
      scoreProducer_of_found isFound
    -- a row under the grader's id is refused by both boundaries or by none
    have both : ∀ metric, metric ≠ "" →
        (forgedMetricReason metric (withDeclaredAuthority bare spec).producer = none ↔
          forgedMetricReason metric (scoreProducer ⟨specs, judges⟩ bare.id metric) = none) := by
      intro metric metricNamed
      have sound := sound_soundRow named metricNamed
      have inJob : (sanitizeScore toText (soundRow bare.id metric)
          (some (withDeclaredAuthority bare spec).producer)).isInvalid = false ↔ _ :=
        isInvalid_of_sound sound
      have atSettle : (settleScore toText ⟨specs, judges⟩ (soundRow bare.id metric)).isInvalid =
          false ↔ _ := isInvalid_of_sound sound
      rw [agree.refused (soundRow bare.id metric) rfl] at inJob
      exact inJob.symm.trans atSettle
    constructor
    · intro metric
      constructor
      · intro own
        have reserved := reserved_of_builtIn own
        have metricNamed : metric ≠ "" := by
          rintro rfl
          revert reserved
          decide
        have settled : forgedMetricReason metric
            (scoreProducer ⟨specs, judges⟩ bare.id metric) = none := by
          rw [settles]
          exact (unforged_reserved reserved).mpr ((mem_owns_settle reserved).mpr own)
        have inJob := (both metric metricNamed).mpr settled
        exact ((mem_owns_job ofKind reserved).mp ((unforged_reserved reserved).mp inJob)).2
      · intro own
        have reserved := reserved_of_builtIn own
        have settled := (fixed metric own).2
        rw [settles] at settled
        exact (mem_owns_settle reserved).mp ((unforged_reserved reserved).mp settled)
    · have inJob := both JUDGE_METRIC_ROOT (by decide)
      rw [settles] at inJob
      have inJob := (unforged_judge.symm.trans inJob).trans unforged_judge
      rw [ownsJudgeVerdict_job ofKind] at inJob
      exact (Bool.eq_iff_iff.mpr inJob).symm

/-- The boundaries agree on what a built grader returns exactly when its specification and the
one that the settle finds under its id entitle it to the same. -/
theorem boundaries_agree_iff (toText : ℚ → String) (budget : GradeBudget) (judges : List String)
    (makes : makeGraders judge validPattern specs = .ok graders) (declared : specs[i]? = some spec)
    (built : graders[i]? = some grader) :
    BoundariesAgree toText budget ⟨specs, judges⟩ spec grader ↔
      SameEntitlement specs spec grader.id := by
  obtain ⟨bare, build, rfl⟩ := buildGrader_of_makeGraders makes declared built
  have ofKind := ofKind_buildGrader build
  constructor
  · exact entitlement_of_agree ofKind
  · intro entitled
    obtain ⟨found, isFound⟩ := found_of_built ofKind (List.mem_of_getElem? declared)
    have forged : ∀ row : ScoreRow, row.graderId = bare.id → bare.id ≠ "" →
        forgedMetricReason row.metric (withDeclaredAuthority bare spec).producer =
          forgedMetricReason row.metric
            (scoreProducer ⟨specs, judges⟩ row.graderId row.metric) := by
      intro row own named
      obtain ⟨undeclared, same⟩ := entitled named
      rw [own]
      exact forged_agree ofKind isFound undeclared (same found isFound).1 (same found isFound).2
    have unnamed : ∀ row : ScoreRow, row.graderId = bare.id → bare.id = "" →
        row.idsBroken = true := by
      intro row own empty
      simp [ScoreRow.idsBroken, own, empty]
    have outcome : ∀ row : ScoreRow, row.graderId = bare.id →
        (settleScore toText ⟨specs, judges⟩ (sanitizeScore toText row
          (some (withDeclaredAuthority bare spec).producer))).outcome =
            (settleScore toText ⟨specs, judges⟩ row).outcome := by
      intro row own
      by_cases named : bare.id = ""
      · exact outcome_of_idsBroken (unnamed row own named) _
      · rw [settleScore_sanitizeScore (forged row own named)]
    refine ⟨?_, ?_, ?_⟩
    · intro caseId rows own
      simp only [sanitized_scores, safeGrade, List.map_map]
      exact List.map_congr_left fun row isIn => outcome row (own row isIn)
    · intro row own
      unfold settleScore
      rw [isInvalid_sanitizeScore, isInvalid_sanitizeScore]
      by_cases named : bare.id = ""
      · simp [unnamed row own named]
      · rw [forged row own named]
    · intro row own sound isFixed
      have named : bare.id ≠ "" := by
        intro empty
        simp [ScoreRow.sound, unnamed row own empty] at sound
      obtain ⟨undeclared, -⟩ := entitled named
      have nothing : declaredOwnedMetrics spec = [] := by
        refine undeclared.resolve_left fun none' => ?_
        rw [none'] at isFixed
        cases isFixed
      have reserved := reserved_of_builtIn isFixed
      have inJob : forgedMetricReason row.metric (withDeclaredAuthority bare spec).producer =
          none :=
        (unforged_reserved reserved).mpr ((mem_owns_job ofKind reserved).mpr ⟨nothing, isFixed⟩)
      refine ⟨(isInvalid_of_sound sound).mpr inJob, (isInvalid_of_sound sound).mpr ?_⟩
      rw [← forged row own named]
      exact inJob

end Agree

/-- A built-in that declares a metric of its own beside the fixed one. -/
def timedTests : GraderSpec :=
  { id := "tests-pass", metrics := [{ id := "runtime_sec" }] }

/-- A built-in whose configuration carries an id that its implementation does not read. -/
def labelledTests : GraderSpec :=
  { id := "tests-pass", config := { id := some "smoke" } }

/-- A custom grader under that id. -/
def smokeScript : GraderSpec :=
  { id := "script",
    config := { id := some "smoke", language := some "python", code := some "print(grade())" } }

/-- The status of a row of the metric at the two boundaries, for each built grader. -/
def boundaryStatuses (specs : List GraderSpec) (metric : String) :
    Except BadRequest (List (String × Bool × Bool)) :=
  (makeGraders false (fun _ => true) specs).map fun graders =>
    graders.map fun grader =>
      (grader.id,
        (sanitizeScore (fun _ => "1") (soundRow grader.id metric)
          (some grader.producer)).isInvalid,
        (settleScore (fun _ => "1") ⟨specs, []⟩ (soundRow grader.id metric)).isInvalid)

/-- The tests that also name a metric lose their own in the job; and a script under an id that
another specification carries unread passes at the settle for that specification's kind. -/
theorem boundaries_differ :
    boundaryStatuses [timedTests] "tests_pass" = .ok [("tests-pass", true, false)] ∧
      boundaryStatuses [labelledTests, smokeScript] "tests_pass" =
        .ok [("tests-pass", false, false), ("smoke", true, false)] := by
  decide +kernel

theorem boundaries_agree_smokeScript :
    BoundariesAgree (fun _ => "1") ⟨1800, 1800000⟩ ⟨[smokeScript], []⟩ smokeScript
      { id := "smoke" } :=
  (boundaries_agree_iff (fun _ => "1") ⟨1800, 1800000⟩ []
    (show makeGraders false (fun _ => true) [smokeScript] = .ok [{ id := "smoke" }] by
      decide +kernel)
    (show [smokeScript][0]? = some smokeScript from rfl) rfl).mpr fun _ =>
      ⟨.inl (by decide +kernel), fun found isFound => by
        obtain rfl : smokeScript = found := by
          have only : specProducing [smokeScript] "smoke" = some smokeScript := by decide +kernel
          exact Option.some.inj (only.symm.trans isFound)
        exact ⟨fun _ => Iff.rfl, rfl⟩⟩

end Everdict.Submission
