import Mathlib.Data.Set.Card
import Everdict.Scorecard.Comparison

/-!
# Dead cases and the green light

The gate over the bare diff of two scorecards, under `require_full`.  It passes
exactly when the pair is `Comparable` and no more verdicts flipped than the
policy tolerates (`gate_passes_iff`).  A case that died before an outcome is in
no denominator of these: its row keeps the case shared, its scores are left out
of both counts of a coverage, and its missing verdict is no regression.  So the
gate keeps its word exactly where no passing case of the baseline died in a
candidate that is comparable otherwise (`no_false_green_iff`).
-/

namespace Everdict.Scorecard

variable {sc b c : Scorecard} {caseId : String} {trial : Nat} {bp cp : VerdictPolicy}
variable {gate : GatePolicy}

/-! ## The verdict of a trial -/

/-- The row of a trial is the last one that the scorecard holds. -/
def rowOf (sc : Scorecard) (caseId : String) (trial : Nat) : Option CaseResult :=
  (sc.results.filter fun r => r.caseId = caseId ∧ r.trial.getD 0 = trial).getLast?

def verdictOf (policy : VerdictPolicy) (sc : Scorecard) (pair : String × Nat) : Option Bool :=
  (rowOf sc pair.1 pair.2).bind fun r => caseVerdict r policy

theorem caseKey_inj {id id' : String} {n n' : Nat} (eq : caseKey id n = caseKey id' n') :
    id = id' ∧ n = n' := by
  simp only [caseKey, ← String.toList_inj, String.toList_append, Text.toList_toString_nat,
    List.append_assoc] at eq
  obtain ⟨names, same⟩ := Text.append_mark_inj (Text.not_mem_digits (by decide) n)
    (Text.not_mem_digits (by decide) n') eq
  exact ⟨String.toList_inj.mp names, Text.toDigits_inj same⟩

theorem get_byKey : (byKey sc).get (caseKey caseId trial) = rowOf sc caseId trial := by
  have key : ∀ r : CaseResult, CaseResult.key r = caseKey caseId trial ↔
      r.caseId = caseId ∧ r.trial.getD 0 = trial := fun r =>
    ⟨caseKey_inj, fun ⟨id, n⟩ => by rw [CaseResult.key, id, n]⟩
  rw [byKey, Table.get_group, rowOf]
  simp only [key]
  generalize sc.results.filter _ = rows
  induction rows using List.reverseRecOn with
  | nil => rfl
  | append_singleton rows r _ => simp

/-- The trials whose verdict was `true` on the baseline and is `false` now. -/
def flipped (b c : Scorecard) (bp cp : VerdictPolicy) : Set (String × Nat) :=
  {pair | verdictOf bp b pair = some true ∧ verdictOf cp c pair = some false}

theorem changeOf_eq_broke_iff {v w : Option Bool} :
    changeOf v w = .broke ↔ v = some true ∧ w = some false := by
  revert v w
  decide

/-- Did the verdict under a key break? -/
def brokeAt (b c : Scorecard) (bp cp : VerdictPolicy) (key : String) : Bool :=
  ((byKey b).get key).any fun bResult => ((byKey c).get key).any fun cResult =>
    changeOf (caseVerdict bResult bp) (caseVerdict cResult cp) = .broke

theorem brokeAt_caseKey :
    brokeAt b c bp cp (caseKey caseId trial) = true ↔ (caseId, trial) ∈ flipped b c bp cp := by
  rw [brokeAt, get_byKey, get_byKey]
  simp only [flipped, Set.mem_ofPred_eq, verdictOf]
  cases rowOf b caseId trial with
  | none => simp
  | some bResult =>
      cases rowOf c caseId trial with
      | none => simp
      | some cResult => simp [changeOf_eq_broke_iff]

/-- Every key of a scorecard is the key of a trial. -/
theorem key_of_byKey {key : String} (found : key ∈ (byKey sc).entries.map Prod.fst) :
    ∃ caseId trial, caseKey caseId trial = key := by
  rw [← not_not (a := key ∈ _), ← Table.get_eq_none, byKey, Table.get_group_eq_none] at found
  simp only [ne_eq, not_forall, not_not, exists_prop] at found
  obtain ⟨r, _, eq⟩ := found
  exact ⟨r.caseId, r.trial.getD 0, eq⟩

theorem mem_keys_of_brokeAt {key : String} (broke : brokeAt b c bp cp key = true) :
    key ∈ (byKey c).entries.map Prod.fst := by
  by_contra absent
  rw [brokeAt, Table.get_eq_none.mpr absent] at broke
  cases (byKey b).get key <;> simp at broke

/-- The keys of a candidate under which the verdict broke. -/
def brokenKeys (b c : Scorecard) (bp cp : VerdictPolicy) : List String :=
  ((byKey c).entries.map Prod.fst).filter (brokeAt b c bp cp)

theorem broke_length_eq_keys :
    ((caseTransitions b c bp cp).filter fun t => t.change = .broke).length
      = (brokenKeys b c bp cp).length := by
  rw [brokenKeys, ← List.countP_eq_length_filter, ← List.countP_eq_length_filter,
    caseTransitions, List.countP_filterMap, List.countP_map]
  refine List.countP_congr fun e mem => ?_
  have found : (byKey c).get e.1 = some e.2 := Table.get_eq_some.mpr mem
  simp only [Function.comp_apply, brokeAt, found, Option.any_some]
  cases (byKey b).get e.1 <;> simp

theorem image_flipped : (fun pair : String × Nat => caseKey pair.1 pair.2) '' flipped b c bp cp
    = ↑(brokenKeys b c bp cp).toFinset := by
  ext key
  simp only [Set.mem_image, Finset.mem_coe, List.mem_toFinset, brokenKeys, List.mem_filter]
  constructor
  · rintro ⟨⟨caseId, trial⟩, mem, rfl⟩
    have broke := brokeAt_caseKey.mpr mem
    exact ⟨mem_keys_of_brokeAt broke, broke⟩
  · rintro ⟨found, broke⟩
    obtain ⟨caseId, trial, rfl⟩ := key_of_byKey found
    exact ⟨(caseId, trial), brokeAt_caseKey.mp broke, rfl⟩

/-- The transitions that broke are counted once for each trial. -/
theorem broke_length_eq : ((caseTransitions b c bp cp).filter fun t => t.change = .broke).length
    = (flipped b c bp cp).ncard := by
  have nodup : (brokenKeys b c bp cp).Nodup := (byKey c).nodup.filter _
  have injective : Function.Injective fun pair : String × Nat => caseKey pair.1 pair.2 :=
    fun _ _ eq => Prod.ext_iff.mpr (caseKey_inj eq)
  rw [broke_length_eq_keys, ← List.toFinset_card_of_nodup nodup, ← Set.ncard_coe_finset,
    ← image_flipped, Set.ncard_image_of_injective _ injective]

/-! ## When the gate passes -/

/-- The two sides can be compared as a whole: they share a case and a metric,
have the same columns, and no metric is measured on less than its share.  A gap
between the shares is either within the tolerance throughout, or a gain. -/
structure Comparable (b c : Scorecard) : Prop where
  case : ∃ id, HasCase b id
  metric : ∃ m, HasMetric b m
  columns : SameColumns b c
  covered : Symmetric b c ∨ Lossless b c

/-- The diff as it stands, with nothing attached. -/
def bare (diff : ScorecardDiff) : GateInput := { toScorecardDiff := diff }

/-- The policy under which each side of a diff is judged. -/
def DiffOptions.sides (opts : DiffOptions) : PolicySide × PolicySide :=
  let policy := opts.policy.getD DEFAULT_VERDICT_POLICY
  (opts.baselinePolicy.getD (.policy policy), opts.candidatePolicy.getD (.policy policy))

/-- The trials whose verdict flipped, where both sides have verdicts. -/
def flippedUnder (b c : Scorecard) (opts : DiffOptions) : Set (String × Nat) :=
  match opts.sides with
  | (.policy bp, .policy cp) => flipped b c bp cp
  | (.policy _, .unresolvable) => ∅
  | (.unresolvable, _) => ∅

/-- Both sides judged under the policies they name. -/
def judged (bp cp : VerdictPolicy) : DiffOptions where
  baselinePolicy := some (.policy bp)
  candidatePolicy := some (.policy cp)

theorem incomplete_iff {diff : GateInput} (strict : gate.comparability ≠ some .allowPartial)
    (coverage : diff.coverage = none) : missingnessReasons diff gate = [] ↔
      (diff.comparability = .partly → missingCases diff = 0 ∧ missingMetrics diff = 0
        ∧ metricCoverageLosses diff = []) := by
  have mode : gate.comparability.getD DEFAULT_COMPARABILITY = .requireFull := by
    rcases eq : gate.comparability with _ | _ | _
    · rfl
    · rfl
    · exact absurd eq strict
  have limit : exceeds (worstUnmeasuredFraction diff.coverage) gate.maxUnmeasuredFraction = false := by
    rw [coverage]
    rfl
  rw [missingnessReasons, mode, limit]
  by_cases partly : diff.comparability = .partly
  · simp [partly, reasonIf]
  · simp [partly, reasonIf]

section Bare

variable {opts : DiffOptions} (diff : GateInput) (eq : diff = bare (diffScorecards b c opts))

include eq in
/-- The comparison is complete exactly when the two sides are comparable. -/
theorem complete_iff (strict : gate.comparability ≠ some .allowPartial) :
    diff.comparability ≠ .none ∧ missingnessReasons diff gate = [] ↔ Comparable b c := by
  have fed : diff.toScorecardDiff = diffScorecards b c opts := by rw [eq]; rfl
  have full := comparability_eq_full_iff fed
  have columns := columns_iff fed
  have losses := losses_iff (show diff.metricCoverage = metricCoverage b c by rw [fed]; rfl)
  rw [incomplete_iff strict (by rw [eq]; rfl), ne_eq, comparability_eq_none_iff fed, not_not,
    ← and_assoc, columns, losses]
  constructor
  · rintro ⟨overlaps, complete⟩
    obtain ⟨id, caseB, _⟩ := overlaps.case
    obtain ⟨m, metricB, _⟩ := overlaps.metric
    by_cases whole : diff.comparability = .full
    · obtain ⟨_, columns, symmetric⟩ := full.mp whole
      exact ⟨⟨id, caseB⟩, ⟨m, metricB⟩, columns, .inl symmetric⟩
    · have partly : diff.comparability = .partly := by
        rcases level : diff.comparability with _ | _ | _
        · exact absurd level whole
        · rfl
        · exact absurd overlaps ((comparability_eq_none_iff fed).mp level)
      obtain ⟨columns, lossless⟩ := complete partly
      exact ⟨⟨id, caseB⟩, ⟨m, metricB⟩, columns, .inr lossless⟩
  · rintro ⟨⟨id, caseB⟩, ⟨m, metricB⟩, columns, covered⟩
    have overlaps : Overlaps b c :=
      ⟨⟨id, caseB, (columns.cases id).mp caseB⟩,
        ⟨m, metricB, (columns.metrics m).mp metricB, columns.kinds m⟩⟩
    refine ⟨overlaps, fun partly => ⟨columns, covered.resolve_left fun symmetric => ?_⟩⟩
    rw [full.mpr ⟨overlaps, columns, symmetric⟩] at partly
    exact absurd partly nofun

/-- The transitions of a diff that broke are the trials that flipped. -/
theorem broke_diff_length : ((diffScorecards b c opts).caseTransitions.filter fun t =>
    t.change = .broke).length = (flippedUnder b c opts).ncard := by
  have transitions : (diffScorecards b c opts).caseTransitions
      = transitionsOf b c opts.sides.1 opts.sides.2 := rfl
  rw [transitions, flippedUnder]
  rcases opts.sides with ⟨_ | bp, _ | cp⟩
  · exact broke_length_eq
  · simp [transitionsOf]
  · simp [transitionsOf]
  · simp [transitionsOf]

include eq in
theorem regressions_eq :
    (regressionReasons diff).length = (flippedUnder b c opts).ncard := by
  subst eq
  rw [← broke_diff_length]
  simp [regressionReasons, bare, brokeCases]

include eq in
/-- The gate over a bare diff asks two things: that the sides are comparable,
and that no more verdicts flipped than the policy tolerates. -/
theorem gate_passes_iff (strict : gate.comparability ≠ some .allowPartial) :
    (evaluateGate diff gate).decision = .pass ↔
      Comparable b c ∧ (flippedUnder b c opts).ncard ≤ gate.maxRegressions := by
  rw [evaluateGate_pass_iff, ← complete_iff diff eq strict, ← regressions_eq diff eq]
  constructor
  · intro h
    exact ⟨⟨h.comparable, h.complete⟩, h.regressions⟩
  · rintro ⟨⟨comparable, complete⟩, regressions⟩
    have uncritical : criticalReasons diff = [] := by
      subst eq
      simp [criticalReasons, bare, isCritical]
    subst eq
    exact ⟨rfl, rfl, .inl rfl, comparable, uncritical, complete, regressions⟩

end Bare

/-! ## Dead cases -/

/-- A trial that passed on the baseline and has no verdict on the candidate: it
has no row there, or its row was cancelled, died or was not scored. -/
def DeadPass (b c : Scorecard) (bp cp : VerdictPolicy) (pair : String × Nat) : Prop :=
  verdictOf bp b pair = some true ∧ verdictOf cp c pair = none

/-- What a green light says of the trials that the baseline passed: each has a
verdict on the candidate, and few enough of them are false. -/
structure HonestGreen (b c : Scorecard) (bp cp : VerdictPolicy) (gate : GatePolicy) : Prop where
  decided : ∀ caseId trial, verdictOf bp b (caseId, trial) = some true →
    ∃ r, rowOf c caseId trial = some r ∧ caseVerdict r cp ≠ none
  flips : (flipped b c bp cp).ncard ≤ gate.maxRegressions

theorem decided_iff : (∀ caseId trial, verdictOf bp b (caseId, trial) = some true →
    ∃ r, rowOf c caseId trial = some r ∧ caseVerdict r cp ≠ none) ↔
      ¬∃ pair, DeadPass b c bp cp pair := by
  have verdict : ∀ caseId trial, (∃ r, rowOf c caseId trial = some r ∧ caseVerdict r cp ≠ none) ↔
      verdictOf cp c (caseId, trial) ≠ none := fun caseId trial => by
    simp only [verdictOf]
    cases rowOf c caseId trial <;> simp
  simp only [verdict, DeadPass, Prod.exists, not_exists, not_and, ne_eq]

/-- The gate keeps its word exactly where no pass of the baseline is without a
verdict in a pair that is comparable and within the regression budget. -/
theorem no_false_green_iff (strict : gate.comparability ≠ some .allowPartial) :
    ((evaluateGate (bare (diffScorecards b c (judged bp cp))) gate).decision = .pass →
        HonestGreen b c bp cp gate) ↔
      ¬(Comparable b c ∧ (flipped b c bp cp).ncard ≤ gate.maxRegressions ∧
        ∃ pair, DeadPass b c bp cp pair) := by
  have flips : flippedUnder b c (judged bp cp) = flipped b c bp cp := rfl
  rw [gate_passes_iff _ rfl strict, flips, ← and_assoc, not_and]
  refine imp_congr_right fun ⟨_, flips⟩ => ?_
  rw [← decided_iff]
  exact ⟨HonestGreen.decided, fun decided => ⟨decided, flips⟩⟩

def passingRow (caseId : String) : CaseResult where
  caseId := caseId
  scores := [.measured { graderId := "tests", metric := "tests_pass", value := 1, pass := some true }]

/-- A case that no backend could place: no outcome, and no scores. -/
def deadRow (caseId : String) : CaseResult where
  caseId := caseId
  scores := []
  failure := some { stage := .dispatch, code := "UPSTREAM_ERROR" }

def healthySuite : Scorecard := ⟨"agent@1", [passingRow "login", passingRow "search"]⟩

def starvedSuite : Scorecard := ⟨"agent@2", [passingRow "login", deadRow "search"]⟩

theorem no_false_green_iff_healthy :
    HonestGreen healthySuite healthySuite DEFAULT_VERDICT_POLICY DEFAULT_VERDICT_POLICY
      { maxRegressions := 0 } := by
  refine (no_false_green_iff (by decide)).mpr ?_ (by decide +kernel)
  rintro ⟨_, _, pair, passed, none⟩
  rw [passed] at none
  exact absurd none nofun

/-- One of two cases died at dispatch, and the gate passes with no regression
tolerated: neither its missing verdict nor its missing scores are counted. -/
theorem dead_case_passes : ¬∀ (b c : Scorecard) (bp cp : VerdictPolicy) (gate : GatePolicy),
    gate.comparability ≠ some .allowPartial →
    (evaluateGate (bare (diffScorecards b c (judged bp cp))) gate).decision = .pass →
    HonestGreen b c bp cp gate := by
  intro claim
  have green := claim healthySuite starvedSuite DEFAULT_VERDICT_POLICY DEFAULT_VERDICT_POLICY
    { maxRegressions := 0 } (by decide) (by decide +kernel)
  obtain ⟨r, row, decided⟩ := green.decided "search" 0 (by decide +kernel)
  have dead : rowOf starvedSuite "search" 0 = some (deadRow "search") := by decide +kernel
  rw [dead] at row
  obtain rfl := Option.some_inj.mp row
  exact decided (by decide +kernel)

end Everdict.Scorecard
