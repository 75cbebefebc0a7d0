import Everdict.Scorecard.Gate

/-!
# What the diff says about its two sides

Every projection of `diffScorecards` is brought back to the rows it was counted
from: which cases and metrics a side has, on what share of its outcome-bearing
rows a metric was measured, which metrics are categorical, and what the verdict
of a trial is.  The gate's questions about completeness then read as questions
about the two scorecards (`comparability_ne_none_iff`, `columns_iff`,
`asymmetric_iff`, `losses_iff`).
-/

namespace Everdict.Scorecard

variable {sc b c : Scorecard} {r : CaseResult} {m caseId : String} {opts : DiffOptions}

/-! ## What a side has -/

def HasCase (sc : Scorecard) (id : String) : Prop := ∃ r ∈ sc.results, r.caseId = id

def Measures (r : CaseResult) (metric : String) : Prop :=
  ∃ s, Score.measured s ∈ r.scores ∧ s.metric = metric

def HasMetric (sc : Scorecard) (metric : String) : Prop := ∃ r ∈ outcomes sc, Measures r metric

/-- Some measurement of the metric carries a label. -/
def Categorical (sc : Scorecard) (metric : String) : Prop :=
  ∃ r ∈ outcomes sc, ∃ s, Score.measured s ∈ r.scores ∧ s.metric = metric ∧ s.label ≠ none

/-- The outcome-bearing rows that measure a metric. -/
def rowsMeasuring (sc : Scorecard) (metric : String) : Nat :=
  (outcomes sc).countP fun r => metric ∈ measuredMetrics r

def share (sc : Scorecard) (metric : String) : ℚ :=
  fractionOf (rowsMeasuring sc metric) (outcomes sc).length

theorem mem_caseIds : caseId ∈ caseIds sc ↔ HasCase sc caseId := by
  simp [caseIds, HasCase]

theorem mem_measuredMetrics : m ∈ measuredMetrics r ↔ Measures r m := by
  simp [measuredMetrics, Measures]

theorem Categorical.hasMetric (h : Categorical sc m) : HasMetric sc m := by
  obtain ⟨r, mem, s, score, name, _⟩ := h
  exact ⟨r, mem, s, score, name⟩

theorem rowsMeasuring_pos_iff : 0 < rowsMeasuring sc m ↔ HasMetric sc m := by
  simp [rowsMeasuring, List.countP_pos_iff, HasMetric, mem_measuredMetrics]

theorem rowsMeasuring_le : rowsMeasuring sc m ≤ (outcomes sc).length :=
  List.countP_le_length

theorem share_pos_iff : 0 < share sc m ↔ HasMetric sc m := by
  rw [← rowsMeasuring_pos_iff]
  have le : rowsMeasuring sc m ≤ (outcomes sc).length := rowsMeasuring_le
  unfold share fractionOf
  constructor
  · intro pos
    by_contra none
    obtain zero : rowsMeasuring sc m = 0 := by omega
    simp [zero] at pos
  · intro pos
    have rows : 0 < (outcomes sc).length := by omega
    rw [if_pos rows]
    exact div_pos (by exact_mod_cast pos) (by exact_mod_cast rows)

/-! ## The summary -/

/-- The tally of the scores of one metric. -/
def MetricTally.of (scores : List Score) : MetricTally where
  values := (measuredScores scores).map fun s => s.value
  passes := (measuredScores scores).filterMap fun s => s.pass
  labeled := (measuredScores scores).filterMap fun s => s.label.map fun label => (label, s.value)
  unmeasured := scores.countP fun s => s.measured?.isNone

theorem tally_of (scores : List Score) :
    (scores.foldl (fun t s => some (MetricTally.add t s)) none).getD {}
      = MetricTally.of scores := by
  induction scores using List.reverseRecOn with
  | nil => rfl
  | append_singleton scores s ih =>
      rw [List.foldl_append, List.foldl_cons, List.foldl_nil, Option.getD_some]
      generalize scores.foldl (fun t s => some (MetricTally.add t s)) none = tally at ih ⊢
      rw [MetricTally.add, ih]
      cases s with
      | measured s =>
          cases pass : s.pass <;> cases label : s.label <;>
            simp [MetricTally.of, measuredScores, Score.measured?, pass, label]
      | unmeasured identity => simp [MetricTally.of, measuredScores, Score.measured?]
      | invalid identity => simp [MetricTally.of, measuredScores, Score.measured?]

/-- The scores of a metric on the outcome-bearing rows. -/
def scoresOf (sc : Scorecard) (metric : String) : List Score :=
  ((outcomes sc).flatMap CaseResult.scores).filter fun s => s.metric = metric

theorem get_tallies (found : ∃ t, (tallies sc).get m = some t) :
    (tallies sc).get m = some (MetricTally.of (scoresOf sc m)) := by
  obtain ⟨t, eq⟩ := found
  have tally := tally_of (scoresOf sc m)
  unfold tallies at eq ⊢
  rw [Table.get_group] at eq ⊢
  rw [scoresOf, eq] at tally
  rw [eq, ← scoresOf] at *
  exact congrArg some tally

theorem mem_scoresOf {s : MeasuredScore} :
    Score.measured s ∈ scoresOf sc m ↔
      ∃ r ∈ outcomes sc, Score.measured s ∈ r.scores ∧ s.metric = m := by
  rw [scoresOf, List.mem_filter, List.mem_flatMap, decide_eq_true_eq]
  constructor
  · rintro ⟨⟨r, mem, score⟩, name⟩
    exact ⟨r, mem, score, name⟩
  · rintro ⟨r, mem, score, name⟩
    exact ⟨⟨r, mem, score⟩, name⟩

theorem values_of_pos_iff : 0 < (MetricTally.of (scoresOf sc m)).values.length ↔ HasMetric sc m := by
  simp only [MetricTally.of, List.length_map, List.length_pos_iff_exists_mem, mem_measuredScores,
    mem_scoresOf]
  constructor
  · rintro ⟨s, r, mem, score, name⟩
    exact ⟨r, mem, s, score, name⟩
  · rintro ⟨r, mem, s, score, name⟩
    exact ⟨s, r, mem, score, name⟩

theorem labeled_of_pos_iff :
    0 < (MetricTally.of (scoresOf sc m)).labeled.length ↔ Categorical sc m := by
  simp only [MetricTally.of, List.length_pos_iff_exists_mem, List.mem_filterMap,
    mem_measuredScores, mem_scoresOf]
  constructor
  · rintro ⟨entry, s, ⟨r, mem, score, name⟩, labeled⟩
    refine ⟨r, mem, s, score, name, fun none => ?_⟩
    simp [none] at labeled
  · rintro ⟨r, mem, s, score, name, labeled⟩
    obtain ⟨label, eq⟩ := Option.ne_none_iff_exists'.mp labeled
    exact ⟨(label, s.value), s, ⟨r, mem, score, name⟩, by simp [eq]⟩

/-- A measured metric has a tally. -/
theorem HasMetric.tally (h : HasMetric sc m) : ∃ t, (tallies sc).get m = some t := by
  obtain ⟨r, mem, s, score, name⟩ := h
  rw [← Option.ne_none_iff_exists']
  intro none
  exact Table.get_group_eq_none.mp none (.measured s)
    (List.mem_flatMap.mpr ⟨r, mem, score⟩) name

theorem find_summary (sc : Scorecard) (m : String) :
    (summarizeScorecard sc).find? (fun s => s.metric = m)
      = ((tallies sc).get m).map (MetricTally.summary m) := by
  rw [summarizeScorecard, List.find?_map, Table.get, Option.map_map]
  refine Option.map_congr fun e found => ?_
  have name : e.1 = m := by
    have hit := List.find?_some found
    exact of_decide_eq_true hit
  simp [name]

theorem isCategorical_iff : isCategorical (summarizeScorecard sc) m = true ↔ Categorical sc m := by
  rw [isCategorical, find_summary, ← labeled_of_pos_iff]
  rcases found : (tallies sc).get m with _ | t
  · simp only [Option.map_none, Option.bind_none, Option.isSome_none, Bool.false_eq_true,
      false_iff]
    intro labeled
    obtain ⟨t, eq⟩ := (labeled_of_pos_iff.mp labeled).hasMetric.tally
    simp [found] at eq
  · obtain rfl : t = MetricTally.of (scoresOf sc m) := by
      simpa [found] using get_tallies ⟨t, found⟩
    by_cases labeled : 0 < (MetricTally.of (scoresOf sc m)).labeled.length
    · simp [MetricTally.summary, labeled]
    · simp [MetricTally.summary, labeled]

theorem mem_metricNames : m ∈ metricNames (summarizeScorecard sc) ↔ HasMetric sc m := by
  rw [metricNames, List.mem_eraseDups, ← values_of_pos_iff]
  simp only [List.mem_map, List.mem_filter, summarizeScorecard, decide_eq_true_eq]
  constructor
  · rintro ⟨_, ⟨⟨e, mem, rfl⟩, counted⟩, rfl⟩
    have found : (tallies sc).get e.1 = some e.2 := Table.get_eq_some.mpr mem
    have tally := get_tallies ⟨_, found⟩
    rw [found, Option.some_inj] at tally
    exact tally ▸ counted
  · intro counted
    obtain ⟨t, found⟩ := (values_of_pos_iff.mp counted).tally
    have tally := get_tallies ⟨_, found⟩
    exact ⟨_, ⟨⟨_, Table.get_eq_some.mp tally, rfl⟩, counted⟩, rfl⟩

/-! ## The coverage -/

theorem count_measuredMetrics :
    (measuredMetrics r).count m = if m ∈ measuredMetrics r then 1 else 0 :=
  (Table.nodup_eraseDups _).count

theorem measuredBy_getD : ((measuredBy sc).get m).getD 0 = rowsMeasuring sc m := by
  rw [measuredBy, Table.count_group, rowsMeasuring]
  induction outcomes sc with
  | nil => rfl
  | cons r rs ih =>
      rw [List.flatMap_cons, List.count_append, ih, count_measuredMetrics, List.countP_cons]
      simp only [decide_eq_true_eq]
      omega

theorem measuredBy_keys : m ∈ (measuredBy sc).entries.map Prod.fst ↔ HasMetric sc m := by
  rw [← not_iff_not, ← Table.get_eq_none, measuredBy, Table.get_group_eq_none]
  simp only [List.mem_flatMap, id_eq, HasMetric, ← mem_measuredMetrics]
  exact ⟨fun none ⟨r, mem, has⟩ => none m ⟨r, mem, has⟩ rfl,
    fun none x ⟨r, mem, has⟩ eq => none ⟨r, mem, eq ▸ has⟩⟩

/-- What the coverage says of one metric. -/
def coverageOf (b c : Scorecard) (metric : String) : MetricCoverage where
  metric := metric
  baselineCases := (outcomes b).length
  baselineMeasured := rowsMeasuring b metric
  candidateCases := (outcomes c).length
  candidateMeasured := rowsMeasuring c metric

theorem mem_metricCoverage {x : MetricCoverage} :
    x ∈ metricCoverage b c ↔ ∃ m, (HasMetric b m ∨ HasMetric c m) ∧ coverageOf b c m = x := by
  simp only [metricCoverage, List.mem_map, Text.mem_sort, List.mem_eraseDups, List.mem_append,
    measuredBy_getD]
  refine exists_congr fun m => and_congr_left fun _ => ?_
  rw [← List.mem_map, ← List.mem_map, measuredBy_keys, measuredBy_keys]

/-- A metric of both sides is measured on the same share of their rows, up to
the tolerance. -/
def Symmetric (b c : Scorecard) : Prop :=
  ∀ m, HasMetric b m → HasMetric c m → |share b m - share c m| ≤ COVERAGE_EPS

/-- No metric of the baseline lost a part of its share beyond the tolerance. -/
def Lossless (b c : Scorecard) : Prop :=
  ∀ m, HasMetric b m → 1 - share c m / share b m ≤ COVERAGE_EPS

theorem asymmetric_eq_true {x : MetricCoverage} : asymmetric x = true ↔
    0 < x.baselineMeasured ∧ 0 < x.candidateMeasured ∧
      COVERAGE_EPS < |fractionOf x.baselineMeasured x.baselineCases
        - fractionOf x.candidateMeasured x.candidateCases| := by
  simp [asymmetric, and_assoc]

variable {diff : GateInput}

theorem mem_losses {x : CoverageLoss} : x ∈ metricCoverageLosses diff ↔
    (∃ m ∈ diff.metricCoverage, 0 < m.baselineMeasured ∧ lossOf m = x) ∧
      COVERAGE_EPS < x.loss := by
  simp [metricCoverageLosses, and_assoc]

/-- The loss of a metric that the baseline measured. -/
theorem lossOf_coverageOf (has : HasMetric b m) :
    (lossOf (coverageOf b c m)).loss = max 0 (1 - share c m / share b m) :=
  if_pos (share_pos_iff.mpr has)

theorem asymmetric_iff : (metricCoverage b c).any asymmetric = false ↔ Symmetric b c := by
  rw [List.any_eq_false]
  simp only [mem_metricCoverage, asymmetric_eq_true]
  constructor
  · intro none m hasB hasC
    have not := none (coverageOf b c m) ⟨m, .inl hasB, rfl⟩
    by_contra beyond
    exact not ⟨rowsMeasuring_pos_iff.mpr hasB, rowsMeasuring_pos_iff.mpr hasC, not_le.mp beyond⟩
  · rintro symmetric _ ⟨m, -, rfl⟩ ⟨measuredB, measuredC, beyond⟩
    have within := symmetric m (rowsMeasuring_pos_iff.mp measuredB)
      (rowsMeasuring_pos_iff.mp measuredC)
    exact absurd within (not_le.mpr beyond)

theorem losses_iff (coverage : diff.metricCoverage = metricCoverage b c) :
    metricCoverageLosses diff = [] ↔ Lossless b c := by
  have eps : (0 : ℚ) ≤ COVERAGE_EPS := by decide +kernel
  rw [List.eq_nil_iff_forall_not_mem]
  simp only [mem_losses, coverage, mem_metricCoverage, not_and, not_lt]
  constructor
  · intro none m has
    have small := none _ ⟨_, ⟨m, .inl has, rfl⟩, rowsMeasuring_pos_iff.mpr has, rfl⟩
    rw [lossOf_coverageOf has] at small
    exact (le_max_right _ _).trans small
  · rintro lossless _ ⟨_, ⟨m, -, rfl⟩, measured, rfl⟩
    have has : HasMetric b m := rowsMeasuring_pos_iff.mp measured
    rw [lossOf_coverageOf has]
    exact max_le eps (lossless m has)

/-! ## The columns -/

/-- Both sides have the same cases and metrics, of the same kinds. -/
structure SameColumns (b c : Scorecard) : Prop where
  cases : ∀ id, HasCase b id ↔ HasCase c id
  metrics : ∀ m, HasMetric b m ↔ HasMetric c m
  kinds : ∀ m, Categorical b m ↔ Categorical c m

/-- Something of the two sides can be compared: a case, and a metric that means
the same on both. -/
structure Overlaps (b c : Scorecard) : Prop where
  case : ∃ id, HasCase b id ∧ HasCase c id
  metric : ∃ m, HasMetric b m ∧ HasMetric c m ∧ (Categorical b m ↔ Categorical c m)

theorem onlyIn_eq_nil_iff {xs ys : List String} : onlyIn xs ys = [] ↔ ∀ x ∈ xs, x ∈ ys := by
  simp [onlyIn]

theorem kinds_ne_iff :
    isCategorical (summarizeScorecard b) m ≠ isCategorical (summarizeScorecard c) m ↔
      ¬(Categorical b m ↔ Categorical c m) := by
  rw [← isCategorical_iff, ← isCategorical_iff, ← Bool.eq_iff_iff]

/-- The columns whose kind differs between the sides. -/
theorem mem_incomparable : m ∈ (diffScorecards b c opts).incomparable ↔
    HasMetric b m ∧ HasMetric c m ∧ ¬(Categorical b m ↔ Categorical c m) := by
  simp only [diffScorecards, List.mem_filter, mem_metricNames, decide_eq_true_eq, kinds_ne_iff,
    and_assoc]

/-- Nothing is missing from the diff exactly when the columns are the same. -/
theorem columns_iff (eq : diff.toScorecardDiff = diffScorecards b c opts) :
    missingCases diff = 0 ∧ missingMetrics diff = 0 ↔ SameColumns b c := by
  have missing : diff.missing = (diffScorecards b c opts).missing := by rw [← eq]
  have incomparable : diff.incomparable = [] ↔
      ∀ m, HasMetric b m → HasMetric c m → (Categorical b m ↔ Categorical c m) := by
    rw [show diff.incomparable = (diffScorecards b c opts).incomparable by rw [← eq],
      List.eq_nil_iff_forall_not_mem]
    simp only [mem_incomparable, not_and, not_not]
  simp only [missingCases, missingMetrics, Nat.add_eq_zero_iff, List.length_eq_zero_iff,
    incomparable, missing]
  simp only [diffScorecards, onlyIn_eq_nil_iff, mem_caseIds, mem_metricNames]
  constructor
  · rintro ⟨⟨casesB, casesC⟩, ⟨metricsB, metricsC⟩, kinds⟩
    have metrics : ∀ m, HasMetric b m ↔ HasMetric c m := fun m => ⟨metricsB m, metricsC m⟩
    refine ⟨fun id => ⟨casesB id, casesC id⟩, metrics, fun m => ⟨fun h => ?_, fun h => ?_⟩⟩
    · exact (kinds m h.hasMetric ((metrics m).mp h.hasMetric)).mp h
    · exact (kinds m ((metrics m).mpr h.hasMetric) h.hasMetric).mpr h
  · rintro ⟨cases, metrics, kinds⟩
    exact ⟨⟨fun id => (cases id).mp, fun id => (cases id).mpr⟩,
      ⟨fun m => (metrics m).mp, fun m => (metrics m).mpr⟩, fun m _ _ => kinds m⟩

/-- A metric is read as a delta when both sides have it and mean the same by it. -/
theorem metrics_eq_nil_iff : (diffScorecards b c opts).metrics = [] ↔
    ¬∃ m, HasMetric b m ∧ HasMetric c m ∧ (Categorical b m ↔ Categorical c m) := by
  simp only [diffScorecards, List.map_eq_nil_iff, List.filter_eq_nil_iff, List.mem_filter,
    mem_metricNames, decide_eq_true_eq, kinds_ne_iff, not_exists]
  exact ⟨fun none m ⟨hasB, hasC, same⟩ => none m ⟨hasB, hasC⟩ fun ⟨_, differ⟩ => differ same,
    fun none m ⟨hasB, hasC⟩ kept => none m ⟨hasB, hasC, not_not.mp fun differ =>
      kept ⟨⟨hasB, hasC⟩, differ⟩⟩⟩

theorem sharedCases_eq_zero_iff : (diffScorecards b c opts).overlap.sharedCases = 0 ↔
    ¬∃ id, HasCase b id ∧ HasCase c id := by
  simp only [diffScorecards, List.length_eq_zero_iff, List.filter_eq_nil_iff, mem_caseIds,
    decide_eq_true_eq, not_exists, not_and]

/-- How comparable the sides are, in terms of the rest of the diff. -/
theorem comparability_eq (eq : diff.toScorecardDiff = diffScorecards b c opts) :
    diff.comparability =
      if diff.overlap.sharedCases = 0 ∨ diff.metrics = [] then .none
      else if missingCases diff = 0 ∧ missingMetrics diff = 0
        ∧ diff.metricCoverage.any asymmetric = false then .full
      else .partly := by
  obtain ⟨d, _⟩ := diff
  obtain rfl : d = diffScorecards b c opts := eq
  simp only [diffScorecards, missingCases, missingMetrics, List.map_eq_nil_iff,
    List.length_eq_zero_iff]
  refine if_congr Iff.rfl rfl ?_
  rw [← ite_not]
  refine if_congr ?_ rfl rfl
  simp only [Bool.or_eq_true, decide_eq_true_eq, not_or, Bool.not_eq_true, gt_iff_lt, Nat.not_lt,
    Nat.le_zero, Nat.add_eq_zero_iff, and_assoc]

theorem not_overlaps_iff (eq : diff.toScorecardDiff = diffScorecards b c opts) :
    diff.overlap.sharedCases = 0 ∨ diff.metrics = [] ↔ ¬Overlaps b c := by
  rw [eq, sharedCases_eq_zero_iff, metrics_eq_nil_iff, ← not_and_or]
  exact not_congr ⟨fun ⟨case, metric⟩ => ⟨case, metric⟩, fun ⟨case, metric⟩ => ⟨case, metric⟩⟩

theorem comparability_eq_none_iff (eq : diff.toScorecardDiff = diffScorecards b c opts) :
    diff.comparability = .none ↔ ¬Overlaps b c := by
  rw [comparability_eq eq, ← not_overlaps_iff eq]
  split
  · next none => simp [none]
  · next some =>
      simp only [some, iff_false]
      split <;> exact nofun

theorem comparability_eq_full_iff (eq : diff.toScorecardDiff = diffScorecards b c opts) :
    diff.comparability = .full ↔ Overlaps b c ∧ SameColumns b c ∧ Symmetric b c := by
  rw [comparability_eq eq, ← columns_iff eq, ← asymmetric_iff, and_assoc,
    show diff.metricCoverage = metricCoverage b c by rw [eq]; rfl]
  have overlaps := not_overlaps_iff eq
  split
  · next none => simp [overlaps.mp none]
  · next some =>
      rw [overlaps, not_not] at some
      simp only [some, true_and]
      split
      · next same => simp [same]
      · next gaps => simp only [gaps, iff_false]; exact nofun

end Everdict.Scorecard
