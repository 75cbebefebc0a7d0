import Mathlib.Data.Rat.Defs
import Mathlib.Tactic.Common

/-!
# Evolution campaigns

The frozen frame of a campaign, the append-only rounds, the record that carries
them, and the adoption it may owe.  Rates and margins are rational: no modelled
function depends on rounding.  The fields that no modelled function reads (the
judges, the delegation budget, the advice of a round) are left out.
-/

namespace Everdict

/-! ## The frame -/

inductive SubjectType where
  | agent
  | harness
  | environment
  deriving DecidableEq

structure CampaignSubject where
  type : SubjectType
  id : String
  baselineVersion : String
  deriving DecidableEq

structure Scenario where
  id : String
  heldOut : Bool := false
  deriving DecidableEq

inductive NonInferiorityVersion where
  | hoeffdingV1
  deriving DecidableEq

structure NonInferiorityPolicy where
  version : NonInferiorityVersion
  margin : ℚ
  alpha : ℚ
  minimumTrials : Nat
  deriving DecidableEq

structure TargetSatisfaction where
  minimumCandidateRate : ℚ
  deriving DecidableEq

structure ObservationPolicy where
  allowDivergent : Bool := false
  minimumCoverage : Option ℚ := none
  maxUnclear : Option Nat := none
  deriving DecidableEq

structure Significance where
  fdrAlpha : Option ℚ := none
  heldOutFamilySize : Option Nat := none
  deriving DecidableEq

/-- One round is one hypothesis and one comparison: a frame budgets at least one. -/
structure CampaignBudget where
  maxRounds : Nat
  positive : 1 ≤ maxRounds
  deriving DecidableEq

structure CampaignFrame where
  subject : CampaignSubject
  /-- The campaign this one continues, over the same held-out rows. -/
  continues : Option String := none
  scenarios : List Scenario
  targets : List String := []
  nonInferiority : Option NonInferiorityPolicy := none
  targetSatisfaction : Option TargetSatisfaction := none
  examProvenBy : Option String := none
  trialsPerCase : Nat
  budget : CampaignBudget
  stopAfterRejectedRounds : Nat
  stopAfterSome : 1 ≤ stopAfterRejectedRounds
  significance : Significance := {}
  allowUnverifiedIdentity : Bool := false
  allowLabelOnlyAdoption : Bool := false
  observationPolicy : ObservationPolicy := {}
  deriving DecidableEq

/-- The ids of the held-out scenarios, in frame order. -/
def CampaignFrame.heldOutIds (frame : CampaignFrame) : List String :=
  (frame.scenarios.filter (·.heldOut)).map (·.id)

/-! ## Rounds -/

inductive NonInferiorityStatus where
  | nonInferior
  | inferior
  | inconclusive
  deriving DecidableEq

structure NonInferiorityCase where
  caseId : String
  baselineTrials : Nat
  candidateTrials : Nat
  lowerDelta : Option ℚ := none
  upperDelta : Option ℚ := none
  status : NonInferiorityStatus
  deriving DecidableEq

structure NonInferiorityResult where
  policyDigest : String
  status : NonInferiorityStatus
  cases : List NonInferiorityCase
  deriving DecidableEq

structure HeldOutCounts where
  improvements : Nat
  regressions : Nat
  deriving DecidableEq

/-- The scenarios some arm passed at least once, and those some arm failed. -/
structure ResponseLevel where
  solved : List String
  failed : List String
  deriving DecidableEq

structure UnmeasuredCount where
  cases : Nat
  of : Nat
  deriving DecidableEq

structure TargetAnswers where
  satisfied : Option (List String) := none
  flipped : List String
  deriving DecidableEq

structure Observations where
  divergent : Nat
  unclear : Nat
  assessed : Option Nat := none
  eligible : Option Nat := none
  deriving DecidableEq

structure CandidateSource where
  source : String
  repo : Option String := none
  sha : Option String := none
  prNumber : Option Int := none
  deriving DecidableEq

structure RoundVerdict where
  comparable : Bool
  heldOut : Option HeldOutCounts := none
  response : Option ResponseLevel := none
  unmeasured : Option UnmeasuredCount := none
  /-- The reservation this round reports; a row older than the ledger has none. -/
  evaluationId : Option String := none
  targets : Option TargetAnswers := none
  candidateSpecDigest : Option String := none
  candidateSource : Option CandidateSource := none
  nonInferiority : Option NonInferiorityResult := none
  observations : Option Observations := none
  unverifiedAxes : List String := []
  deriving DecidableEq

structure CampaignRound where
  seq : Nat
  candidateVersion : String
  baselineScorecardId : String
  candidateScorecardId : String
  verdict : RoundVerdict
  deriving DecidableEq

/-! ## Reserved evaluations and families -/

structure ArmBinding where
  scorecardId : String
  requestDigest : String
  deriving DecidableEq

inductive ArmSide where
  | baseline
  | candidate
  deriving DecidableEq

def ArmSide.name : ArmSide → String
  | .baseline => "baseline"
  | .candidate => "candidate"

structure CampaignEvaluation where
  id : String
  tenant : String
  familyId : String
  campaignId : String
  requestId : String
  candidateVersion : String
  baseline : Option ArmBinding := none
  candidate : Option ArmBinding := none
  reportedRound : Option Nat := none
  deriving DecidableEq

def CampaignEvaluation.arm (evaluation : CampaignEvaluation) : ArmSide → Option ArmBinding
  | .baseline => evaluation.baseline
  | .candidate => evaluation.candidate

def CampaignEvaluation.bindArm (evaluation : CampaignEvaluation) (side : ArmSide)
    (binding : ArmBinding) : CampaignEvaluation :=
  match side with
  | .baseline => { evaluation with baseline := some binding }
  | .candidate => { evaluation with candidate := some binding }

/-- Is a scorecard bound to an arm of the evaluation? -/
def CampaignEvaluation.names (evaluation : CampaignEvaluation) (scorecardId : String) : Bool :=
  evaluation.baseline.any (·.scorecardId = scorecardId)
    || evaluation.candidate.any (·.scorecardId = scorecardId)

structure ExperimentFamily where
  id : String
  tenant : String
  limit : Nat
  consumed : Nat
  deriving DecidableEq

/-! ## The record -/

inductive HaltedState where
  | noImprovement
  | budgetExhausted
  | examInert
  deriving DecidableEq

inductive ClosedState where
  | adopted
  | halted (reason : HaltedState)
  deriving DecidableEq

inductive CampaignState where
  | opened
  | closed (state : ClosedState)
  deriving DecidableEq

inductive CloseOutcome where
  | adopted (version provingScorecardId : String) (candidateSpecDigest : Option String)
      (candidateSource : Option CandidateSource) (waivedAxes : List String)
  | halted (reason : HaltedState) (detail : String)
  deriving DecidableEq

structure CampaignClose where
  outcome : CloseOutcome
  closedBy : String
  deriving DecidableEq

structure EvolutionCampaignRecord where
  id : String
  tenant : String
  issueId : String
  frame : CampaignFrame
  frameDigest : String
  rounds : List CampaignRound := []
  state : CampaignState := .opened
  close : Option CampaignClose := none
  deriving DecidableEq

/-! ## The adoption a close owes -/

/-- A proof that names the bytes it measured is exact; one that names a version alone
authorizes a label. -/
inductive CandidateIdentity where
  | exact
  | labelOnly
  deriving DecidableEq

structure AdoptionCandidate where
  identity : CandidateIdentity
  type : SubjectType
  id : String
  version : String
  specDigest : Option String := none
  deriving DecidableEq

structure CampaignAdoptionProof where
  campaignId : String
  frameDigest : String
  roundSeq : Nat
  candidate : AdoptionCandidate
  provingScorecardId : String
  candidateSource : Option CandidateSource := none
  issueId : String
  gateDigest : String
  deriving DecidableEq

inductive AdoptionOperationState where
  | decided
  | registered
  | completed
  deriving DecidableEq

/-- The merge an adoption owes when its bytes were built from a pull request. -/
structure AdoptionCodeDebt where
  repo : String
  prNumber : Int
  sha : Option String := none
  merged : Bool := false
  mergedSha : Option String := none
  deriving DecidableEq

structure AdoptionOperation where
  operationId : String
  tenant : String
  proof : CampaignAdoptionProof
  state : AdoptionOperationState
  code : Option AdoptionCodeDebt := none
  registeredVersion : Option String := none
  deriving DecidableEq

/-! ## Facts -/

/-- The facts that ride the writes of a campaign and of its adoption. -/
inductive CampaignFact where
  | opened (campaignId : String)
  | closed (campaignId : String) (state : ClosedState)
  | adoptionRegistered (campaignId : String) (candidate : AdoptionCandidate)
      (provingScorecardId issueId : String) (created : Bool)
  | adoptionMerged (campaignId : String) (candidate : AdoptionCandidate) (repo : String)
      (prNumber : Int) (mergedSha issueId : String)
  | adoptionCompleted (campaignId candidateId version issueId provingScorecardId : String)
  deriving DecidableEq

end Everdict
