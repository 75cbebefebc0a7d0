import Everdict.Table
import Everdict.Evolution.ExperimentFamily

/-!
# The in-memory campaign store

The campaigns, the family rows, the reserved evaluations and the adoptions of one
process.  A guarded write answers with what it decided, and a refused one writes nothing.
-/

namespace Everdict.Evolution

structure CampaignStore where
  byId : Table String EvolutionCampaignRecord
  families : Table String ExperimentFamily
  evaluations : Table String CampaignEvaluation
  adoptions : Table String AdoptionOperation
  events : List CampaignFact

namespace CampaignStore

def empty : CampaignStore where
  byId := .empty
  families := .empty
  evaluations := .empty
  adoptions := .empty
  events := []

def recordsOf (s : CampaignStore) (tenant : String) : List EvolutionCampaignRecord :=
  s.byId.values.filter fun r => r.tenant = tenant

def evaluationsOf (s : CampaignStore) (tenant : String) : List CampaignEvaluation :=
  s.evaluations.values.filter fun a => a.tenant = tenant

/-- Another workspace's row reads as nonexistent. -/
def get (s : CampaignStore) (tenant id : String) : Option EvolutionCampaignRecord :=
  (s.byId.get id).filter fun r => r.tenant = tenant

end CampaignStore

/-! ## Creating a campaign -/

/-- What a member of a family holds of its budget: all of it while it is open, and what it
spent once it is closed. -/
def charge (attempts : List CampaignEvaluation) (r : EvolutionCampaignRecord) : Nat :=
  if r.state = .opened then r.frame.budget.maxRounds
  else unclaimedRounds r + attempts.countP fun a => a.campaignId = r.id

/-- Reserve every open campaign's remaining allocation before its evaluations can
start. -/
def assertFamilyCapacity (record : EvolutionCampaignRecord)
    (records : List EvolutionCampaignRecord) (attempts : List CampaignEvaluation) :
    Except FamilyRefusal Unit :=
  match record.frame.continues with
  | none => .ok ()
  | some predecessor =>
      match Forest.rootOf (lineage records) predecessor with
      | .error walk => .error (refusalOfWalk walk)
      | .ok rootId =>
          match (findRecord records rootId).map fun root => experimentFamilyLimit root.frame with
          | none => .error .missingPredecessor
          | some .undeclared => .error .undeclaredFamily
          | some (.declared limit) =>
              let reserved := ((familyOf records rootId).map (charge attempts)).sum
              if record.frame.significance.heldOutFamilySize ≠ some limit
                  ∨ limit < reserved + record.frame.budget.maxRounds then .error .noCapacity
              else .ok ()

inductive CreateRefusal where
  | alreadyExists (id : String)
  | family (refusal : FamilyRefusal)
  deriving DecidableEq

def create (s : CampaignStore) (record : EvolutionCampaignRecord) (events : List CampaignFact) :
    Except CreateRefusal CampaignStore :=
  if (s.byId.get record.id).isSome then .error (.alreadyExists record.id)
  else
    match assertFamilyCapacity record (s.recordsOf record.tenant)
        (s.evaluationsOf record.tenant) with
    | .error refusal => .error (.family refusal)
    | .ok () => .ok {
        s with
        byId := s.byId.set record.id record
        events := s.events ++ events }

/-! ## Reserving an evaluation -/

def familyKey (tenant rootId : String) : String := tenant ++ "/" ++ rootId

def reserveEvaluation (contentDigest : NonInferiorityPolicy → String)
    (requestDigestOf : List String → String) (s : CampaignStore)
    (input : ReserveCampaignEvaluation) : Except FamilyRefusal (CampaignStore × Reservation) :=
  let records := s.recordsOf input.tenant
  match familyMembers input.campaignId records with
  | .error refusal => .error refusal
  | .ok found =>
      let key := familyKey input.tenant found.root.id
      match reserveInFamily contentDigest requestDigestOf input records (s.families.get key)
          (s.evaluationsOf input.tenant) with
      | .error refusal => .error refusal
      | .ok result => .ok ({
          s with
          families := s.families.set key result.family
          evaluations := s.evaluations.set result.evaluation.id result.evaluation }, result)

/-! ## Appending a round -/

inductive CampaignAppendOutcome where
  | appended (seq : Nat)
  | conflict (expected actual : Nat)
  | terminal (state : CampaignState)
  | absent
  /-- The write throws: the round does not own an unreported evaluation. -/
  | notOwned
  deriving DecidableEq

/-- The evaluation a round reports, if it names one. -/
def reportedBy (s : CampaignStore) (round : CampaignRound) : Option CampaignEvaluation :=
  if unclaimed round then none else round.verdict.evaluationId.bind s.evaluations.get

/-- Does the round own the evaluation it names? -/
def ownsEvaluation (tenant id : String) (round : CampaignRound)
    (evaluation : Option CampaignEvaluation) : Bool :=
  evaluation.any fun evaluation =>
    evaluation.tenant = tenant && evaluation.campaignId = id
      && evaluation.reportedRound.isNone
      && evaluation.candidate.any (·.scorecardId = round.candidateScorecardId)
      && evaluation.baseline.any (·.scorecardId = round.baselineScorecardId)

def appendRound (s : CampaignStore) (tenant id : String) (round : CampaignRound)
    (expectedRounds : Nat) (events : List CampaignFact) : CampaignStore × CampaignAppendOutcome :=
  match s.get tenant id with
  | none => (s, .absent)
  | some record =>
      if record.state ≠ .opened then (s, .terminal record.state)
      else if record.rounds.length ≠ expectedRounds
          ∨ record.frame.budget.maxRounds ≤ record.rounds.length then
        (s, .conflict expectedRounds record.rounds.length)
      else
        let evaluation := reportedBy s round
        if !unclaimed round && !ownsEvaluation tenant id round evaluation then (s, .notOwned)
        else
          ({ s with
              byId := s.byId.set id { record with rounds := record.rounds ++ [round] }
              evaluations := match evaluation with
                | none => s.evaluations
                | some evaluation =>
                    s.evaluations.set evaluation.id
                      { evaluation with reportedRound := some round.seq }
              events := s.events ++ events }, .appended (record.rounds.length + 1))

/-! ## Closing a campaign -/

inductive CampaignCloseOutcome where
  | closed
  | already (state : CampaignState)
  | conflict (expected actual : Nat)
  | absent
  deriving DecidableEq

/-- The close writes the authorization it owes with it, once for each campaign. -/
def close (s : CampaignStore) (tenant id : String) (state : ClosedState) (close : CampaignClose)
    (expectedRounds : Nat) (events : List CampaignFact) (adoption : Option AdoptionOperation) :
    CampaignStore × CampaignCloseOutcome :=
  match s.get tenant id with
  | none => (s, .absent)
  | some record =>
      if record.state ≠ .opened then (s, .already record.state)
      else if record.rounds.length ≠ expectedRounds then
        (s, .conflict expectedRounds record.rounds.length)
      else
        ({ s with
            byId := s.byId.set id { record with state := .closed state, close := some close }
            adoptions := match adoption with
              | none => s.adoptions
              | some adoption =>
                  if (s.adoptions.get adoption.proof.campaignId).isSome then s.adoptions
                  else s.adoptions.set adoption.proof.campaignId adoption
            events := s.events ++ events }, .closed)

end Everdict.Evolution
