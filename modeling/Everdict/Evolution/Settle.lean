import Everdict.Evolution.CampaignGate

/-!
# Settling a campaign

`CampaignService.settle` closes a campaign per the gate's answer: an adoption closes as
adopted and owes the operation its proof authorizes, a halt that is an ending closes as
that halt, and everything else is refused.
-/

namespace Everdict.Evolution

/-! ## The rules a frame must satisfy -/

def missingTargets (frame : CampaignFrame) : List String :=
  frame.targets.filter fun t => !frame.scenarios.any fun s => s.id = t

/-- The targets that are held-out: of two scenarios with one id the later one counts. -/
def heldTargets (frame : CampaignFrame) : List String :=
  frame.targets.filter fun t =>
    (frame.scenarios.reverse.find? fun s => s.id = t).any (·.heldOut)

def familyDefects (frame : CampaignFrame) : List String :=
  match frame.significance.heldOutFamilySize with
  | none =>
      ["significance.heldOutFamilySize must be declared — the held-out set is tested once per "
        ++ "round and nothing corrects for that unless the family is pre-registered "
        ++ "(budget.maxRounds is the floor)"]
  | some family =>
      if family < frame.budget.maxRounds then
        [s!"significance.heldOutFamilySize ({family}) is below budget.maxRounds "
          ++ s!"({frame.budget.maxRounds}) — every round consults the held-out set, so a family "
          ++ "smaller than the budget corrects for fewer tests than this campaign is allowed to "
          ++ "run"]
      else []

def campaignFrameDefects (frame : CampaignFrame) : List String :=
  let foreign := missingTargets frame
  let heldOut := heldTargets frame
  let held := frame.heldOutIds.length
  let foreignIds := String.intercalate ", " foreign
  let heldOutTargets := String.intercalate ", " heldOut
  (if (frame.scenarios.map (·.id)).Nodup then [] else
      ["scenario ids must be unique — the gate compares the two sides by id set"])
    ++ (if frame.targets.Nodup then [] else ["target ids must be unique"])
    ++ (if foreign.length = 0 then [] else
      [s!"targets must be frame scenarios — not in scenarios: {foreignIds}"])
    ++ (if heldOut.length = 0 then [] else
      ["a target is a case the loop is briefed on and optimizes against, so it cannot also be "
        ++ s!"held-out: {heldOutTargets}"])
    ++ (if 2 ≤ held then [] else
      ["a campaign needs at least 2 held-out scenarios to have adoption evidence "
        ++ s!"(this frame has {held})"])
    ++ (if frame.significance.fdrAlpha.isSome then [] else
      ["significance.fdrAlpha must be declared — a campaign whose significance level is whatever "
        ++ "the diff defaults to has not frozen the value its verdict depends on"])
    ++ familyDefects frame

/-! ## The proof and the close -/

section settling

variable (contentDigest : NonInferiorityPolicy → String)
variable (answerDigest : CampaignGateAnswer → String)

/-- The proof a registry write has to present, minted from the answer and the round
that proved it. -/
def adoptionProofOf (answer : CampaignGateAnswer) (campaign : EvolutionCampaignRecord) :
    Option CampaignAdoptionProof :=
  match answer with
  | .adopt version provingScorecardId _ candidateSpecDigest candidateSource _ =>
      campaign.rounds.getLast?.map fun latest => {
        campaignId := campaign.id
        frameDigest := campaign.frameDigest
        roundSeq := latest.seq
        candidate := {
          identity := if candidateSpecDigest.isSome then .exact else .labelOnly
          type := campaign.frame.subject.type
          id := campaign.frame.subject.id
          version := version
          specDigest := candidateSpecDigest }
        provingScorecardId := provingScorecardId
        candidateSource := candidateSource
        issueId := campaign.issueId
        gateDigest := answerDigest answer }
  | .continue .. => none
  | .halt .. => none

/-- The merge the proof's own source coordinates owe. -/
def codeDebtOf (proof : CampaignAdoptionProof) : Option AdoptionCodeDebt :=
  proof.candidateSource.bind fun source =>
    source.repo.bind fun repo =>
      source.prNumber.map fun prNumber => { repo := repo, prNumber := prNumber, sha := source.sha }

def adoptionOf (record : EvolutionCampaignRecord) (proof : CampaignAdoptionProof) :
    AdoptionOperation where
  operationId := s!"adopt/{record.tenant}/{record.id}"
  tenant := record.tenant
  proof := proof
  state := .decided
  code := codeDebtOf proof

/-- The halts that are endings: `identity_unverified` keeps the campaign open. -/
def endingOf : HaltReason → Option HaltedState
  | .noImprovement => some .noImprovement
  | .budgetExhausted => some .budgetExhausted
  | .examInert => some .examInert
  | .identityUnverified => none

inductive SettleRefusal where
  | alreadySettled (state : CampaignState)
  | ineligibleFrame (defects : List String)
  | gateContinues
  | nothingAuthorized
  | adoptionRefused (detail : String)
  deriving DecidableEq

structure Settlement where
  state : ClosedState
  close : CampaignClose
  adoption : Option AdoptionOperation
  deriving DecidableEq

/-- What `settle` makes of the gate's answer. -/
def settlementOf (record : EvolutionCampaignRecord) (closedBy : String)
    (answer : CampaignGateAnswer) : Except SettleRefusal Settlement :=
  match answer with
  | .continue .. => .error .gateContinues
  | .adopt version provingScorecardId waivedAxes candidateSpecDigest candidateSource _ =>
      match adoptionProofOf answerDigest answer record with
      | none => .error .nothingAuthorized
      | some proof => .ok {
          state := .adopted
          close := {
            outcome := .adopted version provingScorecardId candidateSpecDigest candidateSource
              waivedAxes
            closedBy := closedBy }
          adoption := some (adoptionOf record proof) }
  | .halt reason detail _ =>
      match endingOf reason with
      | none => .error (.adoptionRefused detail)
      | some ending => .ok {
          state := .halted ending
          close := { outcome := .halted ending detail, closedBy := closedBy }
          adoption := none }

def settle (record : EvolutionCampaignRecord) (spend : CampaignSpend) (closedBy : String) :
    Except SettleRefusal Settlement :=
  if record.state ≠ .opened then .error (.alreadySettled record.state)
  else
    let defects := campaignFrameDefects record.frame
    if defects.length ≠ 0 then .error (.ineligibleFrame defects)
    else
      settlementOf answerDigest record closedBy
        (campaignAdoption contentDigest record.frame record.rounds spend)

end settling

end Everdict.Evolution
