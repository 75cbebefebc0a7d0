import Everdict.Scorecard.DeadCases
import Everdict.Scorecard.Trials

/-!
# Critical cases

The gate blocks when a case declared critical broke: when it is absent from the
candidate, when its verdict flipped, or, where trials ride along, when every scored
trial failed.  A case that ran and was left without a verdict is in none of these
lists: a transition without a verdict is `unmeasured`, and a case without a scored
trial does not enter the trial comparison (`TrialDiffMissing.unscoredCases`, which
the gate does not read).

`critical_kept_iff` says for both flavours of the diff exactly when the gate keeps
its word.
-/

namespace Everdict.Scorecard

variable {b c : Scorecard} {bp cp : VerdictPolicy} {diff : GateInput} {gate : GatePolicy}

/-- A comparison of two scorecards, with or without their trials; what else rides
along is arbitrary. -/
structure Fed (b c : Scorecard) (bp cp : VerdictPolicy) (diff : GateInput) : Prop where
  sides : diff.toScorecardDiff = diffScorecards b c (judged bp cp)
  trials : diff.trials = none ∨ ∃ tests opts, opts.baselinePolicy = some bp ∧
    opts.candidatePolicy = some cp ∧ diff.trials = some (diffTrials tests b c opts).read

def GateInput.critical (diff : GateInput) (caseId : String) : Prop :=
  isCritical (diff.criticalCases.getD []) caseId = true

/-- Every critical verdict that passed on the baseline passes on the candidate.  With
trials the verdict is a case's: some trial of it passed. -/
def CriticalKept (b c : Scorecard) (bp cp : VerdictPolicy) (diff : GateInput) : Prop :=
  match diff.trials with
  | none => ∀ id trial, diff.critical id → verdictOf bp b (id, trial) = some true →
      verdictOf cp c (id, trial) = some true
  | some _ => ∀ id, diff.critical id → PassedSome bp (rowsOf b id) → PassedSome cp (rowsOf c id)

/-- A critical case that plainly broke: it is absent, it flipped, or all of its
scored trials failed. -/
def PlainlyBroken (b c : Scorecard) (bp cp : VerdictPolicy) (diff : GateInput) : Prop :=
  (∃ id, diff.critical id ∧ HasCase b id ∧ ¬HasCase c id) ∨
    match diff.trials with
    | none => ∃ id trial, diff.critical id ∧ (id, trial) ∈ flipped b c bp cp
    | some _ => ∃ id, diff.critical id ∧ PassedSome bp (rowsOf b id) ∧
        JudgedSome cp (rowsOf c id) ∧ ¬PassedSome cp (rowsOf c id)

/-- A critical case that passed on the baseline and was left without a verdict: no
row of the trial has one, or with trials no row of the case. -/
def LeftUnjudged (b c : Scorecard) (bp cp : VerdictPolicy) (diff : GateInput) : Prop :=
  match diff.trials with
  | none => ∃ id trial, diff.critical id ∧ DeadPass b c bp cp (id, trial)
  | some _ => ∃ id, diff.critical id ∧ PassedSome bp (rowsOf b id) ∧ ¬JudgedSome cp (rowsOf c id)

theorem PassedSome.judged {policy : VerdictPolicy} {rows : List CaseResult}
    (h : PassedSome policy rows) : JudgedSome policy rows := by
  obtain ⟨r, mem, pass⟩ := h
  exact ⟨r, mem, by simp [pass]⟩

/-- Where nothing plainly broke, what is not kept was left without a verdict. -/
theorem not_kept_iff (whole : ¬PlainlyBroken b c bp cp diff) :
    ¬CriticalKept b c bp cp diff ↔ LeftUnjudged b c bp cp diff := by
  unfold PlainlyBroken at whole
  unfold CriticalKept LeftUnjudged
  obtain ⟨_, unbroken⟩ := not_or.mp whole
  rcases trials : diff.trials with _ | _
  · simp only [trials, not_forall, exists_prop] at unbroken ⊢
    refine exists_congr fun id => exists_congr fun trial => and_congr_right fun critical => ?_
    rw [DeadPass]
    refine and_congr_right fun passed => ?_
    have kept : verdictOf cp c (id, trial) ≠ some false := fun failed =>
      unbroken ⟨id, trial, critical, passed, failed⟩
    rcases verdict : verdictOf cp c (id, trial) with _ | _ | _
    · simp
    · exact absurd verdict kept
    · simp
  · simp only [trials, not_forall, exists_prop] at unbroken ⊢
    refine exists_congr fun id => and_congr_right fun critical => and_congr_right fun passed => ?_
    constructor
    · intro failed judged
      exact unbroken ⟨id, critical, passed, judged, failed⟩
    · intro unjudged passes
      exact unjudged passes.judged

/-! ## What the gate reads of critical cases -/

theorem mem_rowOf {sc : Scorecard} {caseId : String} {trial : Nat} {r : CaseResult}
    (row : rowOf sc caseId trial = some r) : r.caseId = caseId ∧ r.trial.getD 0 = trial := by
  have mem := List.mem_of_getLast? row
  simpa using (List.mem_filter.mp mem).2

/-- A row stands under the key of its own trial. -/
theorem key_of_get_byKey {sc : Scorecard} {key : String} {r : CaseResult}
    (found : (byKey sc).get key = some r) : CaseResult.key r = key := by
  have mem := Table.mem_keys.mpr ⟨r, found⟩
  obtain ⟨caseId, trial, rfl⟩ := key_of_byKey mem
  rw [get_byKey] at found
  obtain ⟨rfl, rfl⟩ := mem_rowOf found
  rfl

theorem exists_broke_iff {P : String → Prop} :
    (∃ t ∈ caseTransitions b c bp cp, t.change = .broke ∧ P t.caseId) ↔
      ∃ id trial, P id ∧ (id, trial) ∈ flipped b c bp cp := by
  simp only [caseTransitions, List.mem_filterMap, Option.map_eq_some_iff]
  constructor
  · rintro ⟨_, ⟨⟨key, cResult⟩, mem, bResult, foundB, rfl⟩, broke, holds⟩
    have foundC : (byKey c).get key = some cResult := Table.get_eq_some.mpr mem
    have own := key_of_get_byKey foundC
    refine ⟨cResult.caseId, cResult.trial.getD 0, holds, brokeAt_caseKey.mp ?_⟩
    rw [← CaseResult.key, own, brokeAt, foundB, foundC]
    simpa using broke
  · rintro ⟨id, trial, holds, mem⟩
    have broke := brokeAt_caseKey.mpr mem
    simp only [brokeAt, Option.any_eq_true, decide_eq_true_eq] at broke
    obtain ⟨bResult, foundB, cResult, foundC, change⟩ := broke
    have row := foundC
    rw [get_byKey] at row
    refine ⟨_, ⟨(_, cResult), Table.get_eq_some.mp foundC, bResult, foundB, rfl⟩, change, ?_⟩
    rw [(mem_rowOf row).1]
    exact holds

/-- The gate has no critical reason exactly where no critical case plainly broke. -/
theorem criticalReasons_eq_nil_iff (fed : Fed b c bp cp diff) :
    criticalReasons diff = [] ↔ ¬PlainlyBroken b c bp cp diff := by
  have missing : diff.missing.casesOnlyInBaseline = onlyIn (caseIds b) (caseIds c) := by
    rw [fed.sides]
    rfl
  have transitions : diff.caseTransitions = caseTransitions b c bp cp := by
    rw [fed.sides]
    rfl
  have absent : (∃ id ∈ diff.missing.casesOnlyInBaseline, diff.critical id) ↔
      ∃ id, diff.critical id ∧ HasCase b id ∧ ¬HasCase c id := by
    simp only [missing, onlyIn, List.mem_filter, decide_eq_true_eq, mem_caseIds]
    exact exists_congr fun id => and_comm
  rw [PlainlyBroken, ← absent, criticalReasons, List.map_eq_nil_iff, List.append_eq_nil_iff,
    List.filter_eq_nil_iff, not_or]
  refine and_congr (by simp [GateInput.critical]) ?_
  rcases fed.trials with none | ⟨tests, opts, baseline, candidate, some⟩
  · simp only [none, List.map_eq_nil_iff, List.filter_eq_nil_iff, transitions,
      Bool.and_eq_true, decide_eq_true_eq]
    rw [← exists_broke_iff (P := diff.critical)]
    simp [GateInput.critical]
  · have sideB : opts.baselineOf = bp := by simp [TrialOptions.baselineOf, baseline]
    have sideC : opts.candidateOf = cp := by simp [TrialOptions.candidateOf, candidate]
    have collapsed : (∃ x ∈ (diffTrials tests b c opts).read.cases,
        diff.critical x.caseId ∧ x.candidateRate ≤ 0 ∧ 0 < x.baselineRate) ↔
        ∃ id, diff.critical id ∧ PassedSome bp (rowsOf b id) ∧ JudgedSome cp (rowsOf c id) ∧
          ¬PassedSome cp (rowsOf c id) := by
      rw [exists_trialCase (P := fun id bRate cRate => diff.critical id ∧ cRate ≤ 0 ∧ 0 < bRate)]
      simp only [sideB, sideC, passRate_pos_iff, ← not_lt]
      refine exists_congr fun id => ⟨?_, ?_⟩
      · rintro ⟨_, judged, critical, failed, passed⟩
        exact ⟨critical, passed, judged, failed⟩
      · rintro ⟨critical, passed, judged, failed⟩
        exact ⟨passed.judged, judged, critical, failed, passed⟩
    simp only [some, List.map_eq_nil_iff, List.filter_eq_nil_iff, Bool.and_eq_true,
      decide_eq_true_eq, ← collapsed]
    simp [GateInput.critical, and_assoc]

/-! ## The promise of the gate -/

/-- Everything the gate asks apart from its critical cases. -/
structure Cleared (diff : GateInput) (policy : GatePolicy) : Prop where
  resolved : diff.policyUnresolvable = none
  unconfounded : refusedConfounds diff policy = []
  verified : unverifiedIdentity diff = [] ∨ policy.allowUnverifiedIdentity = some true
  comparable : diff.comparability ≠ .none
  complete : missingnessReasons diff policy = []
  regressions : (regressionReasons diff).length ≤ policy.maxRegressions

theorem passes_iff_cleared : Passes diff gate ↔ Cleared diff gate ∧ criticalReasons diff = [] := by
  constructor
  · intro h
    exact ⟨⟨h.resolved, h.unconfounded, h.verified, h.comparable, h.complete, h.regressions⟩,
      h.uncritical⟩
  · rintro ⟨h, uncritical⟩
    exact ⟨h.resolved, h.unconfounded, h.verified, h.comparable, uncritical, h.complete,
      h.regressions⟩

/-- A comparison that declares one case critical. -/
def withCritical (caseId : String) (diff : ScorecardDiff) (trials : Option TrialDiff) : GateInput :=
  { toScorecardDiff := diff, trials, criticalCases := some [.caseId caseId] }

def guarded : GateInput :=
  withCritical "login" (diffScorecards healthySuite healthySuite
    (judged DEFAULT_VERDICT_POLICY DEFAULT_VERDICT_POLICY)) none

/-- The trials of the two suites, whatever the tests say. -/
def starvedTrials : TrialDiff :=
  (diffTrials ⟨fun _ _ _ _ => 1, fun _ _ _ _ => 0, fun _ => 1⟩ healthySuite starvedSuite
    { baselinePolicy := some DEFAULT_VERDICT_POLICY
      candidatePolicy := some DEFAULT_VERDICT_POLICY }).read

def starved (trials : Option TrialDiff) : GateInput :=
  withCritical "search" (diffScorecards healthySuite starvedSuite
    (judged DEFAULT_VERDICT_POLICY DEFAULT_VERDICT_POLICY)) trials

theorem starved_critical (trials : Option TrialDiff) : (starved trials).critical "search" := by
  simp [GateInput.critical, starved, withCritical, isCritical, caseMatches]

end Everdict.Scorecard
