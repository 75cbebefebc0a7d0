import Everdict.Contracts.EvolutionCampaign

/-!
# What a campaign's budget was spent on

`budget.maxRounds` is spent by reservations: an attempt stands reported, outstanding
or lost, and the spend counts every attempt and every round older than the ledger.
-/

namespace Everdict.Evolution

/-- What an arm's batch is, by the platform's own record of it. -/
inductive CampaignArmState where
  | live
  | succeeded
  | lost
  | unknown
  deriving DecidableEq

inductive AttemptStanding where
  | reported (round : Nat)
  | outstanding (reason : String)
  | lost (reason : String)
  deriving DecidableEq

def armSides : List ArmSide := [.baseline, .candidate]

/-- The sides whose batch is known to be lost.  An arm the reader does not name was
not resolved, which is `unknown`. -/
def lostArms (attempt : CampaignEvaluation) (arms : String → Option CampaignArmState) :
    List (ArmSide × ArmBinding) :=
  armSides.filterMap fun side =>
    (attempt.arm side).bind fun arm =>
      if (arms arm.scorecardId).getD .unknown = .lost then some (side, arm) else none

def attemptStandingOf (attempt : CampaignEvaluation)
    (arms : String → Option CampaignArmState) : AttemptStanding :=
  match attempt.reportedRound with
  | some round => .reported round
  | none =>
      match (lostArms attempt arms).head? with
      | some (side, arm) =>
          .lost (s!"its {side.name} batch {arm.scorecardId} did not produce a result, "
            ++ "so this comparison can never be reported")
      | none =>
          let unsubmitted := (armSides.filter fun side => (attempt.arm side).isNone).length
          .outstanding (if 0 < unsubmitted
            then s!"{unsubmitted} of its two arms has not been submitted yet"
            else "both arms can still produce the pair this comparison was reserved for")

def AttemptStanding.isOutstanding : AttemptStanding → Bool
  | .outstanding _ => true
  | .reported _ => false
  | .lost _ => false

/-- How much of the budget is spent, and how much of that could still become a round. -/
structure CampaignSpend where
  consumed : Nat
  outstanding : Nat
  deriving DecidableEq

def roundsOnlySpend (rounds : List CampaignRound) : CampaignSpend where
  consumed := rounds.length
  outstanding := 0

/-- The rounds older than the ledger, which no attempt counts. -/
def unreservedRounds (rounds : List CampaignRound) : Nat :=
  rounds.countP fun round => round.verdict.evaluationId.isNone

def campaignSpendOf (rounds : List CampaignRound) (attempts : List CampaignEvaluation)
    (arms : String → Option CampaignArmState) : CampaignSpend where
  consumed := attempts.length + unreservedRounds rounds
  outstanding := attempts.countP fun attempt => (attemptStandingOf attempt arms).isOutstanding

/-- How many held-out tests a family pre-registered, if its root says so. -/
inductive ExperimentFamilyLimit where
  | declared (limit : Nat)
  | undeclared
  deriving DecidableEq

def experimentFamilyLimit (rootFrame : CampaignFrame) : ExperimentFamilyLimit :=
  match rootFrame.significance.heldOutFamilySize with
  | none => .undeclared
  | some declared => .declared declared

end Everdict.Evolution
