import Mathlib.Algebra.Order.Field.Basic
import Everdict.Evolution.CampaignGate

/-!
# What a winning round says

`Wins` reads `winning` as a statement about the frame and the round: the pair compared,
the pre-registered policy was proved, the candidate's account held up, the targets
flipped and no held-out case regressed.
-/

namespace Everdict.Evolution

variable {contentDigest : NonInferiorityPolicy → String} {frame : CampaignFrame}
  {round : CampaignRound} {verdict : RoundVerdict}

/-- A case is non-inferior under a policy: inside the margin, over enough trials. -/
structure NonInferior (policy : NonInferiorityPolicy) (c : NonInferiorityCase) : Prop where
  status : c.status = .nonInferior
  bounds : ∃ lower upper, c.lowerDelta = some lower ∧ c.upperDelta = some upper
    ∧ -policy.margin ≤ lower ∧ lower ≤ upper
  baselineTrials : policy.minimumTrials ≤ c.baselineTrials
  candidateTrials : policy.minimumTrials ≤ c.candidateTrials

/-- The proof is about the policy, and about every held-out case of the frame. -/
structure ProvesNonInferiority (contentDigest : NonInferiorityPolicy → String)
    (policy : NonInferiorityPolicy) (ids : List String) (proof : NonInferiorityResult) :
    Prop where
  status : proof.status = .nonInferior
  aboutPolicy : proof.policyDigest = contentDigest policy
  someHeldOut : ids ≠ []
  complete : proof.cases.length = ids.length
  each : ∀ id ∈ ids, ∃ c ∈ proof.cases, c.caseId = id ∧ NonInferior policy c

/-- What the judges observed is inside the frame's observation policy. -/
structure ObservationsHold (policy : ObservationPolicy) (observations : Option Observations) :
    Prop where
  notDivergent : ∀ obs, observations = some obs → 0 < obs.divergent → policy.allowDivergent = true
  clear : ∀ obs, observations = some obs → ∀ most, policy.maxUnclear = some most →
    obs.unclear ≤ most
  covered : ∀ need, policy.minimumCoverage = some need →
    ∃ obs assessed eligible, observations = some obs ∧ obs.assessed = some assessed
      ∧ obs.eligible = some eligible ∧ 0 < eligible ∧ need ≤ (assessed : ℚ) / eligible

/-- The targets of the frame are answered one by one. -/
structure TargetsFlipped (frame : CampaignFrame) (answers : TargetAnswers) : Prop where
  satisfied : frame.targetSatisfaction.isSome →
    ∀ id ∈ frame.targets, id ∈ answers.satisfied.getD []
  flipped : ∀ id ∈ frame.targets, id ∈ answers.flipped

structure Wins (contentDigest : NonInferiorityPolicy → String) (frame : CampaignFrame)
    (verdict : RoundVerdict) : Prop where
  comparable : verdict.comparable = true
  nonInferiority : ∀ policy, frame.nonInferiority = some policy →
    ∃ proof, verdict.nonInferiority = some proof
      ∧ ProvesNonInferiority contentDigest policy frame.heldOutIds proof
  observations : ObservationsHold frame.observationPolicy verdict.observations
  targets : frame.targets ≠ [] → ∃ answers, verdict.targets = some answers
    ∧ TargetsFlipped frame answers
  heldOut : ∃ held, verdict.heldOut = some held ∧ held.regressions = 0
    ∧ (frame.targets = [] → 1 ≤ held.improvements)

theorem nonInferior_iff {policy : NonInferiorityPolicy} {c : NonInferiorityCase} :
    NonInferior policy c ↔
      c.status = .nonInferior ∧ c.lowerDelta.any (fun lower => -policy.margin ≤ lower)
        ∧ c.upperDelta.any (fun upper => c.lowerDelta.all (· ≤ upper))
        ∧ policy.minimumTrials ≤ c.baselineTrials ∧ policy.minimumTrials ≤ c.candidateTrials := by
  constructor
  · intro inferior
    obtain ⟨lower, upper, lowerAt, upperAt, inside, ordered⟩ := inferior.bounds
    refine ⟨inferior.status, ?_, ?_, inferior.baselineTrials, inferior.candidateTrials⟩
    · simp [lowerAt, inside]
    · simp [lowerAt, upperAt, ordered]
  · rintro ⟨status, inside, ordered, baselineTrials, candidateTrials⟩
    rcases lowerAt : c.lowerDelta with _ | lower
    · simp [lowerAt] at inside
    rcases upperAt : c.upperDelta with _ | upper
    · simp [upperAt] at ordered
    have inside : -policy.margin ≤ lower := by simpa [lowerAt] using inside
    have ordered : lower ≤ upper := by simpa [lowerAt, upperAt] using ordered
    exact ⟨status, ⟨lower, upper, lowerAt, upperAt, inside, ordered⟩, baselineTrials, candidateTrials⟩

theorem nonInferiorityMet_iff :
    nonInferiorityMet contentDigest frame verdict = true ↔
      ∀ policy, frame.nonInferiority = some policy →
        ∃ proof, verdict.nonInferiority = some proof
          ∧ ProvesNonInferiority contentDigest policy frame.heldOutIds proof := by
  rcases registered : frame.nonInferiority with _ | policy
  · simp [nonInferiorityMet, registered]
  rcases presented : verdict.nonInferiority with _ | proof
  · simp [nonInferiorityMet, registered, presented]
  simp only [nonInferiorityMet, registered, presented, Bool.and_eq_true, decide_eq_true_eq,
    List.all_eq_true, List.any_eq_true, Option.some.injEq, forall_eq', exists_eq_left']
  constructor
  · rintro ⟨⟨⟨⟨status, policyDigest⟩, someHeldOut⟩, complete⟩, each⟩
    refine ⟨status, policyDigest, ?_, complete, ?_⟩
    · simpa using someHeldOut
    · intro id mem
      obtain ⟨c, memCases, ⟨⟨⟨⟨named, status⟩, inside⟩, ordered⟩, baseline⟩, candidate⟩ := each id mem
      exact ⟨c, memCases, named, nonInferior_iff.mpr ⟨status, inside, ordered, baseline, candidate⟩⟩
  · intro proves
    refine ⟨⟨⟨⟨proves.status, proves.aboutPolicy⟩, ?_⟩, proves.complete⟩, ?_⟩
    · simpa using proves.someHeldOut
    · intro id mem
      obtain ⟨c, memCases, named, inferior⟩ := proves.each id mem
      obtain ⟨status, inside, ordered, baseline, candidate⟩ := nonInferior_iff.mp inferior
      exact ⟨c, memCases, ⟨⟨⟨⟨named, status⟩, inside⟩, ordered⟩, baseline⟩, candidate⟩

theorem coverageMet_iff {policy : ObservationPolicy} {observations : Option Observations} :
    coverageMet policy observations = true ↔
      ∀ need, policy.minimumCoverage = some need →
        ∃ obs assessed eligible, observations = some obs ∧ obs.assessed = some assessed
          ∧ obs.eligible = some eligible ∧ 0 < eligible ∧ need ≤ (assessed : ℚ) / eligible := by
  rcases needed : policy.minimumCoverage with _ | need
  · simp [coverageMet, needed]
  rcases observations with _ | obs
  · simp [coverageMet, needed]
  rcases assessedAt : obs.assessed with _ | assessed
  · simp [coverageMet, needed, assessedAt]
  rcases eligibleAt : obs.eligible with _ | eligible
  · simp [coverageMet, needed, assessedAt, eligibleAt]
  simp [coverageMet, needed, assessedAt, eligibleAt, Nat.pos_iff_ne_zero]

theorem accountHolds_iff {policy : ObservationPolicy} {observations : Option Observations} :
    accountHolds policy observations = true ↔
      ∀ obs, observations = some obs →
        (0 < obs.divergent → policy.allowDivergent = true)
          ∧ ∀ most, policy.maxUnclear = some most → obs.unclear ≤ most := by
  rcases observations with _ | obs
  · simp [accountHolds]
  rcases bounded : policy.maxUnclear with _ | most <;>
    rcases allowed : policy.allowDivergent <;> simp [accountHolds, bounded, allowed]

theorem observationsHold_iff {policy : ObservationPolicy} {observations : Option Observations} :
    ObservationsHold policy observations ↔
      accountHolds policy observations = true ∧ coverageMet policy observations = true := by
  rw [accountHolds_iff, coverageMet_iff]
  constructor
  · intro hold
    exact ⟨fun obs some => ⟨hold.notDivergent obs some, hold.clear obs some⟩, hold.covered⟩
  · rintro ⟨account, covered⟩
    exact ⟨fun obs some => (account obs some).1, fun obs some => (account obs some).2, covered⟩

theorem targetsMet_iff {answers : TargetAnswers} :
    targetsMet frame answers = true ↔ TargetsFlipped frame answers := by
  simp only [targetsMet, Bool.and_eq_true, Bool.or_eq_true, List.all_eq_true, decide_eq_true_eq]
  constructor
  · rintro ⟨satisfied, flipped⟩
    refine ⟨?_, flipped⟩
    intro declared
    rcases satisfied with undeclared | satisfied
    · simp [Option.isNone_iff_eq_none.mp undeclared] at declared
    · exact satisfied
  · intro answered
    refine ⟨?_, answered.flipped⟩
    rcases declared : frame.targetSatisfaction with _ | threshold
    · simp
    · exact Or.inr (answered.satisfied (by simp [declared]))

/-- The last question of `winning`, once the round's evidence stands. -/
theorem winning_of_evidence {held : HeldOutCounts}
    (comparable : round.verdict.comparable = true)
    (inferiority : nonInferiorityMet contentDigest frame round.verdict = true)
    (heldAt : round.verdict.heldOut = some held)
    (account : accountHolds frame.observationPolicy round.verdict.observations = true)
    (coverage : coverageMet frame.observationPolicy round.verdict.observations = true) :
    winning contentDigest round frame = true ↔
      held.regressions = 0 ∧ (frame.targets = [] → 1 ≤ held.improvements)
        ∧ (frame.targets ≠ [] → ∃ answers, round.verdict.targets = some answers
            ∧ TargetsFlipped frame answers) := by
  simp only [← targetsMet_iff]
  by_cases none : frame.targets = []
  · simp [winning, comparable, inferiority, heldAt, account, coverage, none, and_comm]
  rcases answered : round.verdict.targets with _ | answers <;>
    simp [winning, comparable, inferiority, heldAt, account, coverage, none, answered, and_comm]

theorem evidence_of_winning (won : winning contentDigest round frame = true) :
    round.verdict.comparable = true
      ∧ nonInferiorityMet contentDigest frame round.verdict = true
      ∧ (∃ held, round.verdict.heldOut = some held)
      ∧ accountHolds frame.observationPolicy round.verdict.observations = true
      ∧ coverageMet frame.observationPolicy round.verdict.observations = true := by
  unfold winning at won
  rcases heldAt : round.verdict.heldOut with _ | held <;> simp [heldAt] at won
  exact ⟨won.1, won.2.1, ⟨held, rfl⟩, won.2.2.1, won.2.2.2.1⟩

/-- `winning` decides `Wins`. -/
theorem winning_iff :
    winning contentDigest round frame = true ↔ Wins contentDigest frame round.verdict := by
  constructor
  · intro won
    obtain ⟨comparable, inferiority, ⟨held, heldAt⟩, account, coverage⟩ := evidence_of_winning won
    obtain ⟨noRegression, improved, targets⟩ :=
      (winning_of_evidence comparable inferiority heldAt account coverage).mp won
    exact {
      comparable := comparable
      nonInferiority := nonInferiorityMet_iff.mp inferiority
      observations := observationsHold_iff.mpr ⟨account, coverage⟩
      targets := targets
      heldOut := ⟨held, heldAt, noRegression, improved⟩ }
  · intro wins
    obtain ⟨held, heldAt, noRegression, improved⟩ := wins.heldOut
    obtain ⟨account, coverage⟩ := observationsHold_iff.mp wins.observations
    apply (winning_of_evidence wins.comparable (nonInferiorityMet_iff.mpr wins.nonInferiority)
      heldAt account coverage).mpr
    exact ⟨noRegression, improved, wins.targets⟩

end Everdict.Evolution
