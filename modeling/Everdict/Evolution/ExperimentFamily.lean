import Everdict.Forest
import Everdict.Text
import Everdict.Evolution.CampaignGate

/-!
# Experiment families

A root campaign and all that transitively continue it test one held-out population.
`reserveInFamily` spends an evaluation of the family before its results exist.
-/

namespace Everdict.Evolution

inductive FamilyRefusal where
  | noCampaign
  | cyclicFamily
  | missingPredecessor
  | otherCandidate
  | otherBytes
  | scorecardBound
  | alreadySettled
  | ended (detail : String)
  | otherExam
  | exhausted
  | undeclaredFamily
  | noCapacity
  deriving DecidableEq

def FamilyRefusal.message : FamilyRefusal → String
  | .noCampaign => "campaign does not exist"
  | .cyclicFamily => "cyclic experiment family"
  | .missingPredecessor => "experiment family predecessor is missing"
  | .otherCandidate => "evaluation request id belongs to another candidate"
  | .otherBytes => "evaluation request id was reused with different submission bytes"
  | .scorecardBound => "a scorecard is already bound to an evaluation"
  | .alreadySettled => "campaign or evaluation is already settled"
  | .ended detail => detail
  | .otherExam => "a campaign evaluation must request exactly its frozen scenarios and trials"
  | .exhausted => "experiment family or campaign evaluation budget is exhausted"
  | .undeclaredFamily =>
      "experiment family root declares no held-out family size, so a continuation cannot be "
        ++ "accounted for"
  | .noCapacity => "experiment family has insufficient unreserved held-out budget"

def refusalOfWalk : Forest.WalkError → FamilyRefusal
  | .cyclic => .cyclicFamily
  | .missing => .missingPredecessor

/-- The campaigns with the one each continues. -/
def lineage (records : List EvolutionCampaignRecord) : List (String × Option String) :=
  records.map fun r => (r.id, r.frame.continues)

def findRecord (records : List EvolutionCampaignRecord) (id : String) :
    Option EvolutionCampaignRecord :=
  records.find? fun r => r.id = id

/-- The family of a root. -/
def familyOf (records : List EvolutionCampaignRecord) (root : String) :
    List EvolutionCampaignRecord :=
  let ids := Forest.descendants (lineage records) root
  records.filter fun r => r.id ∈ ids

structure FamilyMembers where
  root : EvolutionCampaignRecord
  members : List EvolutionCampaignRecord

def familyMembers (campaignId : String) (records : List EvolutionCampaignRecord) :
    Except FamilyRefusal FamilyMembers :=
  match findRecord records campaignId with
  | none => .error .noCampaign
  | some _ =>
      match Forest.rootOf (lineage records) campaignId with
      | .error walk => .error (refusalOfWalk walk)
      | .ok rootId =>
          match findRecord records rootId with
          | none => .error .missingPredecessor
          | some root => .ok { root := root, members := familyOf records rootId }

/-- `!round.verdict.evaluationId`: an empty id is no reservation either. -/
def unclaimed (round : CampaignRound) : Bool :=
  round.verdict.evaluationId.all (· = "")

/-- The rounds logged without a reservation. -/
def unclaimedRounds (record : EvolutionCampaignRecord) : Nat := record.rounds.countP unclaimed

/-- The held-out tests a family may spend; a root that declared none is its own family,
bounded by the budget it froze. -/
def familyLimit (rootFrame : CampaignFrame) : Nat :=
  match experimentFamilyLimit rootFrame with
  | .declared limit => limit
  | .undeclared => rootFrame.budget.maxRounds

structure ReserveCampaignEvaluation where
  tenant : String
  campaignId : String
  requestId : String
  candidateVersion : String
  side : ArmSide
  scorecardId : String
  requestDigest : String
  caseIds : List String
  trials : Nat
  deriving DecidableEq

inductive ReservationKind where
  | reserved
  | replay
  deriving DecidableEq

structure Reservation where
  family : ExperimentFamily
  evaluation : CampaignEvaluation
  kind : ReservationKind
  scorecardId : String
  deriving DecidableEq

/-- The door holds no evidence about whether a spent comparison can still land. -/
def noLivenessEvidence : String → Option CampaignArmState := fun _ => none

/-- What a campaign has spent of its own budget, as the reservation door counts it. -/
def ownSpend (campaign : EvolutionCampaignRecord) (attempts : List CampaignEvaluation) :
    CampaignSpend :=
  campaignSpendOf campaign.rounds (attempts.filter fun a => a.campaignId = campaign.id)
    noLivenessEvidence

section reserving

variable (contentDigest : NonInferiorityPolicy → String)
variable (requestDigestOf : List String → String)

/-- The evaluation a request names. -/
def evaluationIdOf (input : ReserveCampaignEvaluation) : String :=
  "sha256:" ++ requestDigestOf [input.tenant, input.campaignId, input.requestId]

/-- The family as the store holds it, or as its members stand at the first reservation. -/
def currentFamily (input : ReserveCampaignEvaluation) (family : Option ExperimentFamily)
    (found : FamilyMembers) : ExperimentFamily :=
  family.getD {
    id := found.root.id
    tenant := input.tenant
    limit := familyLimit found.root.frame
    consumed := (found.members.map unclaimedRounds).sum }

/-- A request whose arm is bound already: the same bytes replay it. -/
def replayed (input : ReserveCampaignEvaluation) (current : ExperimentFamily)
    (old : CampaignEvaluation) (binding : ArmBinding) : Except FamilyRefusal Reservation :=
  if binding.requestDigest ≠ input.requestDigest then .error .otherBytes
  else .ok {
    family := current
    evaluation := old
    kind := .replay
    scorecardId := binding.scorecardId }

/-- An arm that is not bound yet, of a new evaluation or of one already spent. -/
def reserveArm (input : ReserveCampaignEvaluation) (campaign : EvolutionCampaignRecord)
    (found : FamilyMembers) (current : ExperimentFamily) (attempts : List CampaignEvaluation)
    (old : Option CampaignEvaluation) : Except FamilyRefusal Reservation :=
  if attempts.any fun a => a.names input.scorecardId then .error .scorecardBound
  else if campaign.state ≠ .opened ∨ (old.bind (·.reportedRound)).isSome then
    .error .alreadySettled
  else
    let spend := ownSpend campaign attempts
    match campaignRoundRefusal contentDigest campaign.frame campaign.rounds spend with
    | some ended => .error (.ended ended.detail)
    | none =>
        if Text.sort input.caseIds ≠ Text.sort (campaign.frame.scenarios.map (·.id))
            ∨ input.trials ≠ campaign.frame.trialsPerCase then .error .otherExam
        else if old.isNone ∧ (current.limit ≤ current.consumed
            ∨ campaign.frame.budget.maxRounds ≤ spend.consumed) then .error .exhausted
        else
          let fresh : CampaignEvaluation := {
            id := evaluationIdOf requestDigestOf input
            tenant := input.tenant
            familyId := found.root.id
            campaignId := campaign.id
            requestId := input.requestId
            candidateVersion := input.candidateVersion }
          .ok {
            family := { current with
              consumed := current.consumed + if old.isSome then 0 else 1 }
            evaluation := (old.getD fresh).bindArm input.side
              { scorecardId := input.scorecardId, requestDigest := input.requestDigest }
            kind := .reserved
            scorecardId := input.scorecardId }

def reserveInFamily (input : ReserveCampaignEvaluation)
    (records : List EvolutionCampaignRecord) (family : Option ExperimentFamily)
    (attempts : List CampaignEvaluation) : Except FamilyRefusal Reservation :=
  match records.find? fun r => r.id = input.campaignId ∧ r.tenant = input.tenant with
  | none => .error .noCampaign
  | some campaign =>
      match familyMembers campaign.id records with
      | .error refusal => .error refusal
      | .ok found =>
          let old := attempts.find? fun a => a.id = evaluationIdOf requestDigestOf input
          if old.any fun old => old.candidateVersion ≠ input.candidateVersion then
            .error .otherCandidate
          else
            let current := currentFamily input family found
            match old, old.bind fun old => old.arm input.side with
            | some old, some binding => replayed input current old binding
            | _, _ => reserveArm contentDigest requestDigestOf input campaign found current
                attempts old

end reserving

end Everdict.Evolution
