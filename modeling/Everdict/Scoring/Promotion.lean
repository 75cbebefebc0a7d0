import Everdict.Scoring.Coverage

/-!
# Promotion from the stage

A pass stages what its judges produced, case by case and judge by judge, and writes the same
rows to the carrier plane.  The parity observation compares the two; a promotion strips the
judges it has staged rows for from the carrier's rows and appends the staged ones.
-/

namespace Everdict.Scoring

open ScoringStage (JudgmentClaim)
open Sorting (sortBy)
open Submission (ScoreRow)

/-! ## The observation -/

/-- Is the row the judge's own, its verdict or one of its criteria? -/
def isJudgeMetricOf (score : ScoreRow) (judgeId : String) : Bool :=
  match score.measurement with
  | some measurement =>
      measurement.producer.kind = .judge && measurement.producer.id = judgeId
  | none => Submission.isJudgeMetricOf score.metric judgeId

def stripJudgeScores (scores : List ScoreRow) (judges : List String) : List ScoreRow :=
  scores.filter fun score => !judges.any (isJudgeMetricOf score)

def judgeGradeable (result : CaseResult) : Bool := result.failure.isNone

structure StagedJudgmentRow where
  caseKey : String
  judgeId : String
  claim : Option JudgmentClaim := none
  scores : List ScoreRow

structure ScoringStageParity where
  scorecardId : String
  passId : String
  completed : Bool
  failure : Option String := none
  expectedJudged : Nat := 0
  staged : Nat := 0
  missingFromStage : List String := []
  matched : Nat := 0
  mismatched : List String := []
  orphaned : List String := []
  basisDigest : Option String := none
  deriving DecidableEq

structure StageObservation where
  parity : ScoringStageParity
  staged : List StagedJudgmentRow
  judgments : Option (List JudgmentReceipt)

/-- The rows one judge has on one case of the settled plane. -/
structure Produced where
  case : CaseKey
  scores : List ScoreRow

def CaseResult.delta (result : CaseResult) (judgeId : String) : List ScoreRow :=
  result.scores.filter (isJudgeMetricOf · judgeId)

def CaseResult.produced (judges : List String) (result : CaseResult) : List (String × Produced) :=
  if judgeGradeable result then
    judges.filterMap fun judgeId =>
      if (result.delta judgeId).isEmpty then none
      else some (judgmentUnit result.key judgeId,
        ⟨⟨result.caseId, result.trial⟩, result.delta judgeId⟩)
  else []

def producedUnits (settled : List CaseResult) (judges : List String) : Table String Produced :=
  .ofEntries (settled.flatMap (CaseResult.produced judges))

structure Tally where
  matched : Nat := 0
  mismatched : List String := []
  orphaned : List String := []
  judgments : List JudgmentReceipt := []

def StagedJudgmentRow.unit (entry : StagedJudgmentRow) : String :=
  judgmentUnit entry.caseKey entry.judgeId

def StagedJudgmentRow.receipt (passId : String) (entry : StagedJudgmentRow) (live : Produced)
    (scoreDigest : String) : JudgmentReceipt where
  ref := { scoringPassId := passId, case := live.case, judgeId := entry.judgeId,
           claim := entry.claim }
  scoreDigest
  evidenceEmitter := judgeEvidenceEmitter entry.judgeId (some { passId, claim := entry.claim })

variable (runtime : Runtime)

/-- One staged row compared with the plane; `none` where a row's schema throws. -/
def observeEntry (passId : String) (produced : Table String Produced) (tally : Tally)
    (entry : StagedJudgmentRow) : Option Tally :=
  match produced.get entry.unit with
  | none => some { tally with orphaned := tally.orphaned ++ [entry.unit] }
  | some live =>
      (canonicalJudgmentScores runtime live.scores).bind fun scoreDigest =>
        (canonicalJudgmentScores runtime entry.scores).map fun staged =>
          let judgments := tally.judgments ++ [entry.receipt passId live scoreDigest]
          if scoreDigest = staged then { tally with matched := tally.matched + 1, judgments }
          else { tally with mismatched := tally.mismatched ++ [entry.unit], judgments }

def observationFailed (scorecardId passId failure : String) : StageObservation where
  parity := { scorecardId, passId, completed := false, failure := some failure }
  staged := []
  judgments := none

/-- The stage is read once: not wired, unreadable with an error, or its rows. A schema that
throws on a row does so with `schemaError`. -/
def stageObservationOf (schemaError scorecardId passId : String) (settled : List CaseResult)
    (judges : List String) :
    Option (Except String (List StagedJudgmentRow)) → Option StageObservation
  | none => none
  | some (.error failure) => some (observationFailed scorecardId passId failure)
  | some (.ok staged) =>
      let produced := producedUnits settled judges
      let stagedKeys := staged.map StagedJudgmentRow.unit
      match staged.foldlM (observeEntry runtime passId produced) {} with
      | none => some (observationFailed scorecardId passId schemaError)
      | some tally =>
          some
            { parity :=
                { scorecardId, passId, completed := true
                  expectedJudged := produced.entries.length
                  staged := staged.length
                  missingFromStage :=
                    (produced.entries.map Prod.fst).filter fun key => key ∉ stagedKeys
                  matched := tally.matched
                  mismatched := tally.mismatched
                  orphaned := tally.orphaned
                  basisDigest := some (scorePlaneDigest runtime settled) }
              staged
              judgments := some tally.judgments }

/-! ## The promotion -/

def stagePromotionSafe (parity : ScoringStageParity) : Bool :=
  parity.completed && parity.expectedJudged = parity.staged && parity.staged = parity.matched
    && parity.missingFromStage.length = 0 && parity.mismatched.length = 0
    && parity.orphaned.length = 0

def incompleteRefusal (parity : ScoringStageParity) : String :=
  let failure := parity.failure.getD "unknown"
  s!"the stage/plane parity comparison did not complete ({failure}) — " ++
  "an unmeasured pass is not an agreeing one"

def unpinnedRefusal : String :=
  "the parity comparison did not pin the plane it was taken against — a promotion cannot tell " ++
  "whether it was compared to the carriers or to itself"

def basisRefusal (basisDigest promotingFrom : String) : String :=
  "the parity comparison was taken against a different plane than the one being promoted from " ++
  s!"(compared to {basisDigest}, promoting from {promotingFrom}) — a comparison re-based onto " ++
  "the promoted plane compares the stage with itself"

def mismatchRefusal (parity : ScoringStageParity) : String :=
  let judged := parity.expectedJudged
  let staged := parity.staged
  let matched := parity.matched
  let missing := parity.missingFromStage.length
  let mismatched := parity.mismatched.length
  let orphaned := parity.orphaned.length
  "the staged judgments do not match the plane this pass settled: " ++
  s!"judged={judged} staged={staged} " ++
  s!"matched={matched} missingFromStage={missing} mismatched={mismatched} " ++
  s!"orphaned={orphaned}"

/-- Why a pass may not be promoted, if it may not. -/
def stagePromotionRefusal (parity : ScoringStageParity) (promotingFrom : Option String) :
    Option String :=
  if !parity.completed then some (incompleteRefusal parity)
  else
    let basis := promotingFrom.bind fun promotingFrom =>
      match parity.basisDigest with
      | none => some unpinnedRefusal
      | some basisDigest =>
          if basisDigest ≠ promotingFrom then some (basisRefusal basisDigest promotingFrom)
          else none
    match basis with
    | some refusal => some refusal
    | none => if stagePromotionSafe parity then none else some (mismatchRefusal parity)

/-- The staged rows of one case for the selected judges, in the order of the judges' ids. -/
def promotedRows (staged : List StagedJudgmentRow) (judges : List String) (result : CaseResult) :
    List StagedJudgmentRow :=
  sortBy (fun row : StagedJudgmentRow => runtime.collation row.judgeId)
    (staged.filter fun row => row.judgeId ∈ judges && row.caseKey = result.key)

def promoteResult (staged : List StagedJudgmentRow) (judges : List String)
    (result : CaseResult) : CaseResult :=
  let ordered := promotedRows runtime staged judges result
  if ordered.isEmpty then result
  else
    { result with
      scores := stripJudgeScores result.scores (ordered.map (·.judgeId))
        ++ ordered.flatMap (·.scores) }

def promoteStagedJudgments (results : List CaseResult) (staged : List StagedJudgmentRow)
    (judges : List String) : List CaseResult :=
  results.map (promoteResult runtime staged judges)

structure StagePromotion where
  applied : Bool
  refusal : Option String := none
  deriving DecidableEq

structure Promotion where
  results : List CaseResult
  parity : Option ScoringStageParity := none
  promotion : Option StagePromotion := none

def unobservedRefusal : String :=
  "this pass has no stage observation (no scoring stage is wired, or the pass carries no " ++
  "identity) — the carriers stay authoritative"

def divergedRefusal : String :=
  "the plane promoted from the stage differs from the plane this pass wrote, on units the " ++
  "parity comparison called identical — the comparison and the merge disagree, so neither may " ++
  "certify this revision"

/-- Which plane a settled pass certifies. -/
def promoteFromStage (scoringStageAuthoritative : Bool) (carrier : List CaseResult)
    (observation : Option StageObservation) (judges : List String) : Promotion :=
  if !scoringStageAuthoritative then
    { results := carrier, parity := observation.map (·.parity) }
  else
    match observation with
    | none =>
        { results := carrier
          promotion := some { applied := false, refusal := some unobservedRefusal } }
    | some observation =>
        match stagePromotionRefusal observation.parity (some (scorePlaneDigest runtime carrier)) with
        | some unsafe' =>
            { results := carrier, parity := some observation.parity
              promotion := some { applied := false, refusal := some unsafe' } }
        | none =>
            let promoted := promoteStagedJudgments runtime carrier observation.staged judges
            if scorePlaneDigest runtime promoted ≠ scorePlaneDigest runtime carrier then
              { results := carrier
                parity := some { observation.parity with
                  completed := false, failure := some divergedRefusal }
                promotion := some { applied := false, refusal := some divergedRefusal } }
            else
              { results := promoted, parity := some observation.parity
                promotion := some { applied := true } }

end Everdict.Scoring
