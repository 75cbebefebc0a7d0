import Mathlib.Algebra.Order.Ring.Unbundled.Rat
import Everdict.Evolution.CampaignAttempts

/-!
# The adoption gate

One total function over the frozen frame and the append-only rounds.  The rejected
streak and the spend are derived from the rounds; `campaignStoppedAt` says where the
frame's own rules ended the campaign, `campaignRoundRefusal` is the write-side half of
it, and `campaignAdoption` answers.  The digests of the documents are parameters.
-/

namespace Everdict.Evolution

/-! ## A winning round -/

section winning

variable (contentDigest : NonInferiorityPolicy → String)

/-- A pre-registered policy is met when the proof is about it and covers every
held-out case at its margin and trial floor. -/
def nonInferiorityMet (frame : CampaignFrame) (verdict : RoundVerdict) : Bool :=
  match frame.nonInferiority with
  | none => true
  | some policy =>
      match verdict.nonInferiority with
      | none => false
      | some proof =>
          let ids := frame.heldOutIds
          proof.status = .nonInferior
            && proof.policyDigest = contentDigest policy
            && ids.length ≠ 0
            && proof.cases.length = ids.length
            && ids.all fun id => proof.cases.any fun c =>
              c.caseId = id
                && c.status = .nonInferior
                && c.lowerDelta.any (fun lower => -policy.margin ≤ lower)
                && c.upperDelta.any (fun upper => c.lowerDelta.all (· ≤ upper))
                && policy.minimumTrials ≤ c.baselineTrials
                && policy.minimumTrials ≤ c.candidateTrials

/-- The candidate's own account holds up: no divergence unless the frame allows it, and
no more unclear answers than it allows. -/
def accountHolds (policy : ObservationPolicy) (observations : Option Observations) : Bool :=
  observations.all fun obs =>
    !(0 < obs.divergent && !policy.allowDivergent)
      && policy.maxUnclear.all fun maxUnclear => obs.unclear ≤ maxUnclear

/-- Enough of the round was looked at.  An absent count is unknown coverage. -/
def coverageMet (policy : ObservationPolicy) (observations : Option Observations) : Bool :=
  policy.minimumCoverage.all fun need =>
    match observations.bind (·.assessed), observations.bind (·.eligible) with
    | some assessed, some eligible =>
        eligible ≠ 0 && need ≤ (assessed : ℚ) / eligible
    | _, _ => false

/-- The targets met their threshold, if one is declared, and flipped. -/
def targetsMet (frame : CampaignFrame) (targets : TargetAnswers) : Bool :=
  (frame.targetSatisfaction.isNone
      || frame.targets.all fun id => id ∈ targets.satisfied.getD [])
    && frame.targets.all fun id => id ∈ targets.flipped

def winning (round : CampaignRound) (frame : CampaignFrame) : Bool :=
  let v := round.verdict
  if !v.comparable then false
  else if !nonInferiorityMet contentDigest frame v then false
  else
    match v.heldOut with
    | none => false
    | some held =>
        if !accountHolds frame.observationPolicy v.observations then false
        else if !coverageMet frame.observationPolicy v.observations then false
        else if frame.targets.length ≠ 0 then
          match v.targets with
          | none => false
          | some targets =>
              if !targetsMet frame targets then false else held.regressions = 0
        else 1 ≤ held.improvements && held.regressions = 0

end winning

/-! ## The exam -/

/-- The scenarios nothing has ever passed; one round that cannot say withholds it. -/
def neverSolvedAcross (frame : CampaignFrame) (rounds : List CampaignRound) :
    Option (List String) :=
  if rounds.length = 0 then none
  else
    (rounds.mapM fun (round : CampaignRound) => round.verdict.response).bind fun levels =>
      let solved := levels.flatMap (·.solved)
      let never := (frame.scenarios.map (·.id)).filter fun id => id ∉ solved
      if 0 < never.length then some never else none

inductive ExamInertness where
  | neverSolved
  | noHeadroom
  | neverMeasured
  deriving DecidableEq

def examInertness (rounds : List CampaignRound) : Option ExamInertness :=
  if rounds.length = 0 then none
  else if rounds.any fun round =>
      round.verdict.response.isNone && round.verdict.unmeasured.isNone then none
  else if rounds.all fun round =>
      round.verdict.unmeasured.any fun unmeasured => 0 < unmeasured.cases then
    some .neverMeasured
  else if rounds.any fun round => round.verdict.response.isNone then none
  else
    let said := rounds.filterMap fun round => round.verdict.response
    if said.all fun level => level.solved.length = 0 then some .neverSolved
    else if said.all fun level => level.failed.length = 0 then some .noHeadroom
    else none

def inertDetail (kind : ExamInertness) (rounds : Nat) : String :=
  match kind with
  | .neverSolved =>
      s!"no scenario of this frozen exam has ever been passed by either arm, across all {rounds} "
        ++ "logged round(s) — the exam never responded, so no candidate could have shown an "
        ++ "improvement and none can"
  | .noHeadroom =>
      s!"every scenario passes on both arms in all {rounds} logged round(s) — the exam has no "
        ++ "headroom left to measure an improvement in"
  | .neverMeasured =>
      s!"every one of the {rounds} logged round(s) had scenarios the graders could not be measured "
        ++ "on at all — the campaign ended on a grader that cannot answer, not on hypotheses that "
        ++ "were tried and lost"

/-! ## The endings -/

inductive StopReason where
  | noImprovement
  | budgetExhausted
  deriving DecidableEq

structure CampaignStop where
  reason : StopReason
  /-- The 1-based position of the round at which the frame's rule fired. -/
  atRound : Nat
  deriving DecidableEq

structure RoundRefusal extends CampaignStop where
  detail : String
  deriving DecidableEq

section endings

variable (contentDigest : NonInferiorityPolicy → String)

/-- The rule that fires at the round of index `i`, if one does, with the streak of
rejections up to it.  The streak outranks the budget. -/
def ruleAt (frame : CampaignFrame) (i consecutiveRejected : Nat) (won : Bool) :
    Option CampaignStop :=
  if frame.stopAfterRejectedRounds ≤ consecutiveRejected then
    some { reason := .noImprovement, atRound := i + 1 }
  else if frame.budget.maxRounds ≤ i + 1 ∧ !won then
    some { reason := .budgetExhausted, atRound := i + 1 }
  else none

/-- The scan of the rounds from index `i` on; a win resets the streak. -/
def firstStop (frame : CampaignFrame) (i consecutiveRejected : Nat) :
    List CampaignRound → Option CampaignStop
  | [] => none
  | r :: rounds =>
      let won := winning contentDigest r frame
      let consecutiveRejected := if won then 0 else consecutiveRejected + 1
      match ruleAt frame i consecutiveRejected won with
      | some stop => some stop
      | none => firstStop frame (i + 1) consecutiveRejected rounds

/-- The ending read off the attempts: spent, and nothing still able to land. -/
def campaignStoppedAt (frame : CampaignFrame) (rounds : List CampaignRound)
    (spend : CampaignSpend) : Option CampaignStop :=
  match firstStop contentDigest frame 0 0 rounds with
  | some stop => some stop
  | none =>
      if frame.budget.maxRounds ≤ spend.consumed ∧ spend.outstanding = 0
          ∧ rounds.getLast?.all (fun latest => !winning contentDigest latest frame) then
        some { reason := .budgetExhausted, atRound := rounds.length }
      else none

def campaignRoundRefusal (frame : CampaignFrame) (rounds : List CampaignRound)
    (spend : CampaignSpend) : Option RoundRefusal :=
  match campaignStoppedAt contentDigest frame rounds spend with
  | some stopped =>
      some { stopped with
        detail := match stopped.reason with
          | .noImprovement =>
              s!"{frame.stopAfterRejectedRounds} consecutive rounds were rejected by round "
                ++ s!"{stopped.atRound} — the campaign ended by its own rule; ask the gate and "
                ++ "settle it"
          | .budgetExhausted =>
              s!"{max stopped.atRound spend.consumed} of {frame.budget.maxRounds} budgeted "
                ++ "comparisons are spent and the last is not adoptable — the campaign ended by "
                ++ "its own rule; ask the gate and settle it" }
  | none =>
      if frame.budget.maxRounds ≤ rounds.length then
        some {
          reason := .budgetExhausted
          atRound := rounds.length
          detail := s!"all {frame.budget.maxRounds} budgeted rounds are logged — a round past the "
            ++ "budget would be judged at a level the pre-registered held-out family does not "
            ++ "cover; ask the gate and settle" }
      else none

end endings

/-! ## The answer -/

inductive HaltReason where
  | noImprovement
  | budgetExhausted
  | identityUnverified
  | examInert
  deriving DecidableEq

inductive CampaignGateAnswer where
  | adopt (version provingScorecardId : String) (waivedAxes : List String)
      (candidateSpecDigest : Option String) (candidateSource : Option CandidateSource)
      (neverSolved : Option (List String))
  | continue (roundsLeft consecutiveRejected : Nat) (neverSolved : Option (List String))
  | halt (reason : HaltReason) (detail : String) (neverSolved : Option (List String))
  deriving DecidableEq

section adoption

variable (contentDigest : NonInferiorityPolicy → String)

/-- The answer to a campaign its own rule ended: which ending it was, the hypotheses or
the instrument. -/
def endedAnswer (frame : CampaignFrame) (rounds : List CampaignRound) (spend : CampaignSpend)
    (ended : CampaignStop) : CampaignGateAnswer :=
  let after := rounds.length - ended.atRound
  let tail := if 0 < after
    then s!" — the {after} round(s) logged after it are not adoption evidence" else ""
  match examInertness rounds with
  | some inert => .halt .examInert (inertDetail inert rounds.length) none
  | none =>
      match ended.reason with
      | .noImprovement =>
          .halt .noImprovement
            (s!"{frame.stopAfterRejectedRounds} consecutive rounds were rejected by round "
              ++ s!"{ended.atRound} (frame stops after {frame.stopAfterRejectedRounds})" ++ tail)
            none
      | .budgetExhausted =>
          let spent := min (max ended.atRound spend.consumed) frame.budget.maxRounds
          .halt .budgetExhausted
            (s!"{spent} of {frame.budget.maxRounds} budgeted comparisons are spent and the latest "
              ++ "budgeted candidate is not adoptable" ++ tail)
            none

/-- The answer to a winning latest round: adopt it, unless the frame waives neither the
axes nor the bytes it could not verify. -/
def winnerAnswer (frame : CampaignFrame) (latest : CampaignRound) : CampaignGateAnswer :=
  let unverified := latest.verdict.unverifiedAxes
  let axes := String.intercalate ", " unverified
  if 0 < unverified.length ∧ !frame.allowUnverifiedIdentity then
    .halt .identityUnverified
      (s!"the winning round's comparison could not verify {axes} — "
        ++ "an optimization verdict over an unverifiable world is refused unless the frame "
        ++ "recorded allowUnverifiedIdentity at open. Run a round through a lane that seals a "
        ++ "manifest, or — for a loop over ingested scorecards, which seal none and read "
        ++ "unverified on every axis — open the campaign with that waiver declared")
      none
  else if latest.verdict.candidateSpecDigest.isNone ∧ !frame.allowLabelOnlyAdoption then
    .halt .identityUnverified
      ("the winning round's candidate scorecard sealed no spec digest, so the adoption could "
        ++ "name only the version label — a candidate substituted between the evaluation and the "
        ++ "registration would be undetectable. Run a round whose batch seals a manifest, or "
        ++ "record allowLabelOnlyAdoption on the frame at open")
      none
  else
    .adopt latest.candidateVersion latest.candidateScorecardId
      (if frame.allowUnverifiedIdentity then unverified else [])
      latest.verdict.candidateSpecDigest latest.verdict.candidateSource none

/-- The length of the run of rejections that ends the rounds. -/
def trailingRejections (frame : CampaignFrame) (rounds : List CampaignRound) : Nat :=
  (rounds.reverse.takeWhile fun r => !winning contentDigest r frame).length

def decideAdoption (frame : CampaignFrame) (rounds : List CampaignRound)
    (spend : CampaignSpend) : CampaignGateAnswer :=
  match campaignStoppedAt contentDigest frame rounds spend with
  | some ended => endedAnswer frame rounds spend ended
  | none =>
      -- Only a trace whose last budgeted round won can be over budget and not stopped.
      if frame.budget.maxRounds < rounds.length then
        .halt .budgetExhausted
          (s!"{rounds.length} rounds exceed the budget of {frame.budget.maxRounds} — rounds past "
            ++ "the budget were judged at a level the pre-registered held-out family does not "
            ++ "cover, and are not adoption evidence")
          none
      else
        match rounds.getLast?.filter fun latest => winning contentDigest latest frame with
        | some latest => winnerAnswer frame latest
        | none =>
            .continue (frame.budget.maxRounds - max spend.consumed rounds.length)
              (trailingRejections contentDigest frame rounds) none

def CampaignGateAnswer.withNeverSolved (never : List String) :
    CampaignGateAnswer → CampaignGateAnswer
  | .adopt version scorecard axes digest source _ =>
      .adopt version scorecard axes digest source (some never)
  | .continue roundsLeft rejected _ => .continue roundsLeft rejected (some never)
  | .halt reason detail _ => .halt reason detail (some never)

def CampaignGateAnswer.explained (frame : CampaignFrame) (never : List String) :
    CampaignGateAnswer → CampaignGateAnswer
  | .halt reason detail neverSolved =>
      let more := if 8 < never.length then ", …" else ""
      let named := String.intercalate ", " (never.take 8)
      .halt reason
        (s!"{detail}. {never.length} of the frame's {frame.scenarios.length} scenario(s) were "
          ++ "never passed by either arm in any round "
          ++ s!"({named}{more}), and this frame declared no "
          ++ "positive control (examProvenBy), so nothing has established that its exam can be "
          ++ "scored at all")
        neverSolved
  | answer => answer

def campaignAdoption (frame : CampaignFrame) (rounds : List CampaignRound)
    (spend : CampaignSpend) : CampaignGateAnswer :=
  let answer := decideAdoption contentDigest frame rounds spend
  match neverSolvedAcross frame rounds with
  | none => answer
  | some never =>
      if frame.examProvenBy.isNone then (answer.explained frame never).withNeverSolved never
      else answer.withNeverSolved never

end adoption

end Everdict.Evolution
